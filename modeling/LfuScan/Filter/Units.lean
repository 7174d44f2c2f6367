import LfuScan.Foundations.Decimal
import LfuScan.Filter.Compiled

/-! What a bare quantity matches: the unit named in an option against the margin the predicate
gets. The parsers pick the unit, the option compiler the margin, the evaluator applies it.
-/

namespace LfuScan.Filter

open LfuScan.Lustre LfuScan.Foundations

variable {ns : NameService} {f : LfuFilter}

/-- A numeral has no sign of its own. -/
theorem lfuParseSign_decimal (n : Nat) (rest : Bytes)
    : lfuParseSign (decimal n ++ rest) = (.eq, decimal n ++ rest) := by
  obtain ⟨d, tail, split, small, _⟩ := decimal_head n
  obtain ⟨_, _, minus, plus, _⟩ := digit_facts (Nat.lt_of_lt_of_le small (by decide))
  rw [split, List.cons_append, lfuParseSign, if_neg (by simpa using plus),
    if_neg (by simpa using minus)]

/-- Where the filter has room, an option appends its predicate. -/
theorem pushPred_appends (compiled : Compiled ns f) (room : f.n ≠ lfuMaxPred) (fld : LfuField)
    (op : LfuOp) (val val2 : UInt64)
    : ∃ neg : UInt8,
        (pushPred f fld op val val2).rc = 0
        ∧ (pushPred f fld op val val2).filter.preds
          = f.preds ++ [{ field := fld.code, op := op.code, neg, val, val2 }] := by
  unfold pushPred
  cases new : lfuPredNew f fld with
  | none =>
      unfold lfuPredNew at new
      rw [if_neg (by simpa using room)] at new
      cases new
  | some made =>
      obtain ⟨_, fresh, _⟩ := lfuPredNew_some new
      refine ⟨if f.negPending != 0 then 1 else 0, rfl, ?_⟩
      rw [store_preds compiled.wellCompiled new, fresh]

-----------------------------------------------------------------------------------------
-- Sizes
-----------------------------------------------------------------------------------------

/-- The units of a size. -/
inductive SizeSuffix
  | bare | b | c | k | m | g | t | p | e
deriving DecidableEq, Repr

def SizeSuffix.bytes : SizeSuffix → Nat
  | .bare => 512
  | .b => 512
  | .c => 1
  | .k => 2 ^ 10
  | .m => 2 ^ 20
  | .g => 2 ^ 30
  | .t => 2 ^ 40
  | .p => 2 ^ 50
  | .e => 2 ^ 60

/-- How a unit is written, in either case. -/
def SizeSuffix.spellings : SizeSuffix → List Bytes
  | .bare => [[]]
  | .b => [cstr "b", cstr "B"]
  | .c => [cstr "c", cstr "C"]
  | .k => [cstr "k", cstr "K"]
  | .m => [cstr "m", cstr "M"]
  | .g => [cstr "g", cstr "G"]
  | .t => [cstr "t", cstr "T"]
  | .p => [cstr "p", cstr "P"]
  | .e => [cstr "e", cstr "E"]

/-- What the parser makes of a suffix after a numeral. -/
theorem suffix_facts (suffix : SizeSuffix)
    : ∀ text ∈ suffix.spellings,
        isDigit 10 (firstChar text) = false
        ∧ tolower (firstChar text) ≠ ch 'x'
        ∧ firstChar text ≠ ch '.'
        ∧ (text = [] ∧ suffix.bytes = 512
          ∨ text = [firstChar text]
            ∧ sizeUnit? (firstChar text) = some (UInt64.ofNat suffix.bytes)) := by
  cases suffix <;> decide

theorem lfuParseSize_decimal {n : Nat} {suffix : SizeSuffix} {text : Bytes}
    (fits : n * suffix.bytes < 2 ^ 64) (spelt : text ∈ suffix.spellings)
    : lfuParseSize (decimal n ++ text) 512 = .value (UInt64.ofNat (n * suffix.bytes)) := by
  obtain ⟨stop, plain, whole, unit⟩ := suffix_facts suffix text spelt
  have positive : 1 ≤ suffix.bytes := by cases suffix <;> decide
  have small : n < 2 ^ 64 := Nat.lt_of_le_of_lt (Nat.le_mul_of_pos_right n positive) fits
  have product (mult : UInt64) (named : mult = UInt64.ofNat suffix.bytes)
      : UInt64.ofNat n * mult + 0 * mult / 1 = UInt64.ofNat (n * suffix.bytes) := by
    rw [named, UInt64.zero_mul, UInt64.ofNat_mul]
    exact UInt64.add_zero _
  have integral : sizeFraction text = (0, 1, text) := by
    rw [sizeFraction, if_neg (by simpa using whole)]
  unfold lfuParseSize
  simp only [strtoull_decimal small stop plain, integral]
  rcases unit with ⟨rfl, bare⟩ | ⟨one, named⟩
  · exact congrArg SizeParse.value (product 512 (by rw [bare]; rfl))
  · rw [one]
    simp only [sizeMult?, named]
    exact congrArg SizeParse.value (product _ rfl)

/-- The options whose bare number is in 512-byte units. -/
inductive SizeOpt
  | size
  | blocks

def SizeOpt.opt : SizeOpt → LfuOpt
  | .size => .size
  | .blocks => .blocks

def SizeOpt.field : SizeOpt → LfuField
  | .size => .size
  | .blocks => .blocks

/-- The predicate a bare size compiles to: the margin is 512 whatever the unit. -/
theorem lfuFilterOpt_bareSize (compiled : Compiled ns f) (room : f.n ≠ lfuMaxPred)
    (opt : SizeOpt) {n : Nat} {suffix : SizeSuffix} {text : Bytes}
    (fits : n * suffix.bytes < 2 ^ 64) (spelt : text ∈ suffix.spellings)
    : ∃ result neg,
        lfuFilterOpt ns f opt.opt (decimal n ++ text) = some result
        ∧ result.rc = 0
        ∧ result.filter.preds
          = f.preds ++ [
              {
                field := opt.field.code
                op := LfuOp.eq.code
                neg
                val := UInt64.ofNat (n * suffix.bytes)
                val2 := 512
              }] := by
  have parsed := lfuParseSize_decimal fits spelt
  have unsigned := lfuParseSign_decimal n text
  have made (fld : LfuField) (plain : (fld == .stripeSize) = false)
      : compileSize f fld (decimal n ++ text)
        = some (pushPred f fld .eq (UInt64.ofNat (n * suffix.bytes)) 512) := by
    unfold compileSize
    simp only [plain, Bool.false_eq_true, if_false, unsigned, parsed, Bool.false_and,
      beq_self_eq_true, if_true]
  obtain ⟨neg, succeeded, appended⟩ := pushPred_appends compiled room opt.field .eq
    (UInt64.ofNat (n * suffix.bytes)) 512
  refine ⟨_, neg, ?_, succeeded, appended⟩
  cases opt with
  | size => exact made .size rfl
  | blocks => exact made .blocks rfl

/-- An equality with a margin: a window of that width below the value, as long as adding the
margin does not wrap.
-/
theorem lfuCmp_margin (p : LfuPred) (op : p.op = LfuOp.eq.code) (margin : p.val2 = 512)
    (s : UInt64)
    : lfuCmp p s = true ↔ s.toNat ≤ p.val.toNat ∧ p.val.toNat < (s.toNat + 512) % 2 ^ 64 := by
  unfold lfuCmp
  rw [op, LfuOp.ofCode?_code, margin]
  simp only [show ((512 : UInt64) != 0) = true from rfl, if_true, Bool.and_eq_true,
    decide_eq_true_eq, UInt64.le_iff_toNat_le, gt_iff_lt, UInt64.lt_iff_toNat_lt,
    UInt64.toNat_add]
  rfl

/-- The window of a bare size is the one its unit names exactly for units of 512 bytes, below
the last multiple of 512.
-/
theorem window_iff {n u : Nat} (positive : 1 ≤ n) (fits : n * u < 2 ^ 64)
    (unit : u = 512 ∨ u = 1 ∨ 512 < u)
    : (∀ s < 2 ^ 64,
        (s ≤ n * u ∧ n * u < (s + 512) % 2 ^ 64) ↔ ((n - 1) * u < s ∧ s ≤ n * u))
      ↔ u = 512 ∧ n * u + 512 < 2 ^ 64 := by
  obtain ⟨m, rfl⟩ : ∃ m, n = m + 1 := ⟨n - 1, by omega⟩
  simp only [Nat.add_sub_cancel]
  rw [Nat.succ_mul] at *
  constructor
  · intro law
    rcases unit with rfl | rfl | large
    · refine ⟨rfl, ?_⟩
      have top := (law (m * 512 + 512) fits).mpr (by omega)
      by_contra wraps
      have last : m * 512 + 512 + 512 = 2 ^ 64 := by omega
      rw [last] at top
      omega
    · exfalso
      by_cases wraps : m + 512 < 2 ^ 64
      · have below := (law (m * 1) (by omega)).mp (by omega)
        omega
      · have top := (law (m * 1 + 1) (by omega)).mpr (by omega)
        omega
    · exfalso
      have inside := (law (m * u + u - 512) (by omega)).mpr (by omega)
      omega
  · rintro ⟨rfl, room⟩ s _
    omega

/-- A bare size matches exactly the sizes of the unit it names if and only if that unit is 512
bytes and the margin does not wrap.
-/
theorem bare_size_iff (compiled : Compiled ns f) (room : f.n ≠ lfuMaxPred) (opt : SizeOpt)
    (n : Nat) (positive : 1 ≤ n) (suffix : SizeSuffix) (fits : n * suffix.bytes < 2 ^ 64)
    (text : Bytes) (spelt : text ∈ suffix.spellings)
    : ∃ result p,
        lfuFilterOpt ns f opt.opt (decimal n ++ text) = some result
        ∧ result.rc = 0
        ∧ result.filter.preds = f.preds ++ [p]
        ∧ p.field = opt.field.code
        ∧ ((∀ s : UInt64,
              lfuCmp p s = true
                ↔ (n - 1) * suffix.bytes < s.toNat ∧ s.toNat ≤ n * suffix.bytes)
            ↔ suffix.bytes = 512 ∧ n * suffix.bytes + 512 < 2 ^ 64) := by
  obtain ⟨result, neg, ran, succeeded, appended⟩ :=
    lfuFilterOpt_bareSize compiled room opt fits spelt
  refine ⟨result, _, ran, succeeded, appended, rfl, ?_⟩
  have unit : suffix.bytes = 512 ∨ suffix.bytes = 1 ∨ 512 < suffix.bytes := by
    cases suffix <;> decide
  have value : (UInt64.ofNat (n * suffix.bytes)).toNat = n * suffix.bytes :=
    UInt64.toNat_ofNat_of_lt' fits
  rw [← window_iff positive fits unit]
  constructor
  · intro law s below
    have size : (UInt64.ofNat s).toNat = s := UInt64.toNat_ofNat_of_lt' below
    have here := law (UInt64.ofNat s)
    rw [lfuCmp_margin _ rfl rfl, size] at here
    simpa only [value] using here
  · intro law s
    rw [lfuCmp_margin _ rfl rfl]
    simpa only [value] using law s.toNat s.toNat_lt

theorem bare_size_iff_one
    : ∃ result p,
        lfuFilterOpt noNames {} .size (decimal 1 ++ cstr "M") = some result
        ∧ result.filter.preds = [p]
        ∧ ¬∀ s : UInt64, lfuCmp p s = true ↔ (1 - 1) * 2 ^ 20 < s.toNat ∧ s.toNat ≤ 1 * 2 ^ 20 := by
  obtain ⟨result, p, ran, _, appended, _, law⟩ :=
    bare_size_iff .empty (by decide) .size 1 (by decide) .m (by decide) (cstr "M") (by decide)
  exact ⟨result, p, ran, appended, fun holds => absurd (law.mp holds).1 (by decide)⟩

/-- `--size 1M` does not match a file of one byte. -/
theorem bare_size_one_megabyte
    : (lfuFilterOpt noNames {} .size (cstr "1M")).map
        (fun result => (result.rc, result.filter.preds.map fun p => lfuCmp p 1))
      = some (0, [false]) := by
  decide

-----------------------------------------------------------------------------------------
-- Ages
-----------------------------------------------------------------------------------------

/-- The units of an age. -/
inductive TimeUnit
  | y | w | d | h | m | s
deriving DecidableEq, Repr

def TimeUnit.seconds : TimeUnit → Nat
  | .y => 365 * 86400
  | .w => 7 * 86400
  | .d => 86400
  | .h => 3600
  | .m => 60
  | .s => 1

def TimeUnit.letter : TimeUnit → UInt8
  | .y => ch 'y'
  | .w => ch 'w'
  | .d => ch 'd'
  | .h => ch 'h'
  | .m => ch 'm'
  | .s => ch 's'

/-- The seconds of some terms. -/
def seconds (quantities : List (Nat × Nat)) : Nat := (quantities.map fun q => q.1 * q.2).sum

/-- The smallest of a unit and the units of some terms. -/
def least (small : Nat) (quantities : List (Nat × Nat)) : Nat :=
  (quantities.map (·.2)).foldl min small

/-- A time argument: terms with a unit, then perhaps a last number without one, in days. -/
structure TimeArg where
  terms : List (Nat × TimeUnit)
  last : Option Nat
  nonempty : terms ≠ [] ∨ last.isSome

namespace TimeArg

/-- Every number with its unit in seconds. -/
def quantities (arg : TimeArg) : List (Nat × Nat) :=
  arg.terms.map (fun term => (term.1, term.2.seconds)) ++ (arg.last.map (·, 86400)).toList

def text (arg : TimeArg) : Bytes :=
  arg.terms.flatMap (fun term => decimal term.1 ++ [term.2.letter])
    ++ (arg.last.map decimal).getD []

def total (arg : TimeArg) : Nat := seconds arg.quantities

/-- The smallest unit used. -/
def smallest (arg : TimeArg) : Nat :=
  match arg.quantities with
  | [] => 0
  | first :: rest => least first.2 rest

end TimeArg

theorem letter_facts (unit : TimeUnit) (rest : Bytes)
    : isDigit 10 (firstChar (unit.letter :: rest)) = false
      ∧ tolower (firstChar (unit.letter :: rest)) ≠ ch 'x'
      ∧ timeUnit? (unit.letter :: rest) = some (UInt64.ofNat unit.seconds, rest)
      ∧ 1 ≤ unit.seconds ∧ unit.seconds < 2 ^ 64 := by
  have letter : isDigit 10 unit.letter = false ∧ tolower unit.letter ≠ ch 'x' := by
    cases unit <;> decide
  refine ⟨letter.1, letter.2, ?_⟩
  cases unit <;> exact ⟨rfl, by decide, by decide⟩

theorem ofNat_min {left right : Nat} (first : left < 2 ^ 64) (second : right < 2 ^ 64)
    : (if UInt64.ofNat right < UInt64.ofNat left then UInt64.ofNat right
        else UInt64.ofNat left)
      = UInt64.ofNat (min left right) := by
  have order : UInt64.ofNat right < UInt64.ofNat left ↔ right < left := by
    rw [UInt64.lt_iff_toNat_lt, UInt64.toNat_ofNat_of_lt' first,
      UInt64.toNat_ofNat_of_lt' second]
  split
  · rename_i less
    rw [Nat.min_eq_right (Nat.le_of_lt (order.mp less))]
  · rename_i less
    rw [Nat.min_eq_left (Nat.le_of_not_lt fun smaller => less (order.mpr smaller))]

/-- One term of the loop: a number, its unit, and what is left to read. -/
theorem timeTerms_step {left n unit total small : Nat} {rest after : Bytes} (fits : n < 2 ^ 64)
    (stop : isDigit 10 (firstChar rest) = false) (plain : tolower (firstChar rest) ≠ ch 'x')
    (named : timeUnit? rest = some (UInt64.ofNat unit, after)) (bounded : small < 2 ^ 64)
    (short : unit < 2 ^ 64)
    : timeTerms (left + 1) (decimal n ++ rest) (UInt64.ofNat total) (UInt64.ofNat small)
      = timeTerms left after (UInt64.ofNat (total + n * unit))
          (UInt64.ofNat (min small unit)) := by
  have number := strtoull_decimal fits stop plain
  obtain ⟨d, tail, split, _⟩ := decimal_head n
  rw [split, List.cons_append] at number ⊢
  rw [timeTerms.eq_def]
  simp only [number, Bool.not_true, Bool.or_false, Bool.false_eq_true, if_false, named,
    ofNat_min bounded short, UInt64.ofNat_add, UInt64.ofNat_mul]

theorem length_decimal (n : Nat) : 1 ≤ (decimal n).length := by
  obtain ⟨d, tail, split, _⟩ := decimal_head n
  rw [split]
  exact Nat.le_add_left 1 _

theorem least_lt {small : Nat} (bounded : small < 2 ^ 64) (quantities : List (Nat × Nat))
    : least small quantities < 2 ^ 64 := by
  unfold least
  induction quantities generalizing small with
  | nil => exact bounded
  | cons q rest ih => exact ih (Nat.lt_of_le_of_lt (Nat.min_le_left _ _) bounded)

/-- The terms with a unit, whatever follows them. -/
theorem timeTerms_units (terms : List (Nat × TimeUnit)) (left total small : Nat) (tail : Bytes)
    (bounded : small < 2 ^ 64)
    (fits : total + seconds (terms.map fun term => (term.1, term.2.seconds)) < 2 ^ 64)
    : timeTerms (left + terms.length)
        (terms.flatMap (fun term => decimal term.1 ++ [term.2.letter]) ++ tail)
        (UInt64.ofNat total) (UInt64.ofNat small)
      = timeTerms left tail
          (UInt64.ofNat (total + seconds (terms.map fun term => (term.1, term.2.seconds))))
          (UInt64.ofNat (least small (terms.map fun term => (term.1, term.2.seconds)))) := by
  induction terms generalizing total small with
  | nil => rfl
  | cons term rest ih =>
      obtain ⟨n, unit⟩ := term
      obtain ⟨stop, plain, named, positive, short⟩ := letter_facts unit
        (rest.flatMap (fun term => decimal term.1 ++ [term.2.letter]) ++ tail)
      have product : n ≤ n * unit.seconds := Nat.le_mul_of_pos_right n positive
      have sum : seconds (((n, unit) :: rest).map fun term => (term.1, term.2.seconds))
          = n * unit.seconds + seconds (rest.map fun term => (term.1, term.2.seconds)) := by
        simp [seconds]
      rw [sum, ← Nat.add_assoc] at fits ⊢
      have small_ : n < 2 ^ 64 := Nat.lt_of_le_of_lt (by omega) fits
      rw [List.length_cons, ← Nat.add_assoc, List.flatMap_cons, List.append_assoc,
        List.append_assoc, List.singleton_append,
        timeTerms_step small_ stop plain named bounded short,
        ih _ _ (Nat.lt_of_le_of_lt (Nat.min_le_left _ _) bounded) fits]
      rfl

theorem timeTerms_end (left : Nat) (total small : UInt64)
    : timeTerms left [] total small = some (total, small) := by
  cases left <;> rfl

/-- A last number without a unit counts days. -/
theorem timeTerms_last (left n total small : Nat) (fits : n < 2 ^ 64) (bounded : small < 2 ^ 64)
    : timeTerms (left + 1) (decimal n) (UInt64.ofNat total) (UInt64.ofNat small)
      = some (UInt64.ofNat (total + n * 86400), UInt64.ofNat (min small 86400)) := by
  have unit : timeUnit? [] = some (UInt64.ofNat 86400, []) := rfl
  rw [← List.append_nil (decimal n),
    timeTerms_step fits (by decide) (by decide) unit bounded (by decide), timeTerms_end]

/-- Every term takes at least one character. -/
theorem length_terms (terms : List (Nat × TimeUnit))
    : terms.length ≤ (terms.flatMap (fun term => decimal term.1 ++ [term.2.letter])).length := by
  induction terms with
  | nil => exact Nat.le_refl 0
  | cons term rest ih =>
      simp only [List.flatMap_cons, List.length_append, List.length_cons, List.length_nil]
      omega

theorem lfuParseTime_terms {arg : Bytes} (given : 0 < arg.length)
    : lfuParseTime arg = timeTerms arg.length arg (UInt64.ofNat 0) (UInt64.ofNat 86400) := by
  unfold lfuParseTime
  rw [if_neg (by rw [List.isEmpty_iff_length_eq_zero]; omega)]
  rfl

/-- The parser reads the total back, and as the smallest unit never more than a day. -/
theorem lfuParseTime_text (arg : TimeArg) (fits : arg.total < 2 ^ 64)
    : lfuParseTime arg.text
      = some (UInt64.ofNat arg.total, UInt64.ofNat (least 86400 arg.quantities)) := by
  obtain ⟨terms, last, nonempty⟩ := arg
  have counted := length_terms terms
  cases last with
  | none =>
      have some_ : terms ≠ [] := nonempty.resolve_right (by simp)
      have positive : 0 < terms.length := List.length_pos_iff.mpr some_
      simp only [TimeArg.total, TimeArg.quantities, TimeArg.text, Option.map_none,
        Option.toList_none, List.append_nil, Option.getD_none] at fits ⊢
      obtain ⟨left, fuel⟩ := Nat.exists_eq_add_of_le' counted
      have read := timeTerms_units terms left 0 86400 [] (by decide)
        (by rw [Nat.zero_add]; exact fits)
      rw [List.append_nil, timeTerms_end, Nat.zero_add] at read
      rw [lfuParseTime_terms (by omega), fuel]
      exact read
  | some n =>
      have long := length_decimal n
      simp only [TimeArg.total, TimeArg.quantities, TimeArg.text, Option.map_some,
        Option.toList_some, Option.getD_some] at fits ⊢
      have sum : seconds (terms.map (fun term => (term.1, term.2.seconds)) ++ [(n, 86400)])
          = seconds (terms.map fun term => (term.1, term.2.seconds)) + n * 86400 := by
        simp [seconds]
      have smallest
          : least 86400 (terms.map (fun term => (term.1, term.2.seconds)) ++ [(n, 86400)])
            = min (least 86400 (terms.map fun term => (term.1, term.2.seconds))) 86400 := by
        simp [least]
      rw [sum] at fits ⊢
      have below : n < 2 ^ 64 := Nat.lt_of_le_of_lt (by omega) fits
      obtain ⟨left, fuel⟩ := Nat.exists_eq_add_of_le'
        (show terms.length + 1
            ≤ (terms.flatMap (fun term => decimal term.1 ++ [term.2.letter])
                ++ decimal n).length by
          rw [List.length_append]
          omega)
      have read := timeTerms_units terms (left + 1) 0 86400 (decimal n) (by decide)
        (by rw [Nat.zero_add]; exact Nat.lt_of_le_of_lt (Nat.le_add_right _ _) fits)
      rw [Nat.zero_add, timeTerms_last left n _ _ below (least_lt (by decide) _), Nat.add_assoc,
        Nat.add_comm 1] at read
      rw [lfuParseTime_terms (by omega), fuel, smallest]
      exact read

theorem least_assoc (left right : Nat) (quantities : List (Nat × Nat))
    : least (min left right) quantities = min left (least right quantities) := by
  unfold least
  exact List.foldl_assoc

theorem TimeArg.least_smallest (arg : TimeArg)
    : least 86400 arg.quantities = min 86400 arg.smallest := by
  have given : arg.quantities ≠ [] := by
    rcases arg.nonempty with terms | last
    · simp [TimeArg.quantities, terms]
    · obtain ⟨n, number⟩ := Option.isSome_iff_exists.mp last
      simp [TimeArg.quantities, number]
  unfold TimeArg.smallest
  cases listed : arg.quantities with
  | nil => exact absurd listed given
  | cons first rest => exact least_assoc 86400 first.2 rest

theorem TimeArg.lfuParseSign_text (arg : TimeArg)
    : lfuParseSign arg.text = (.eq, arg.text) := by
  obtain ⟨terms, last, nonempty⟩ := arg
  cases terms with
  | cons term rest =>
      simp only [TimeArg.text, List.flatMap_cons, List.append_assoc]
      exact lfuParseSign_decimal term.1 _
  | nil =>
      obtain ⟨n, rfl⟩ := Option.isSome_iff_exists.mp (nonempty.resolve_left (absurd rfl))
      have bare := lfuParseSign_decimal n []
      rw [List.append_nil] at bare
      exact bare

/-- The options that compare an age. -/
inductive TimeOpt
  | atime | mtime | ctime | btime

def TimeOpt.opt : TimeOpt → LfuOpt
  | .atime => .atime
  | .mtime => .mtime
  | .ctime => .ctime
  | .btime => .btime

/-- The timestamp an option compares. -/
def TimeOpt.stamp (opt : TimeOpt) (rec : LfuRec) : UInt32 :=
  match opt with
  | .atime => rec.atime
  | .mtime => rec.mtime
  | .ctime => rec.ctime
  | .btime => rec.crtime

def TimeOpt.field : TimeOpt → LfuField
  | .atime => .atime
  | .mtime => .mtime
  | .ctime => .ctime
  | .btime => .btime

/-- How long ago a timestamp was, zero for one in the future. -/
def age (now : Int) (stamp : UInt32) : Nat := (now - stamp.toNat).toNat

theorem lfuAge_toNat {now : Int} (present : now < 2 ^ 63) (stamp : UInt32)
    : (lfuAge now stamp).toNat = age now stamp := by
  unfold lfuAge age
  split
  · exact UInt64.toNat_ofNat_of_lt' (by simp only [UInt64.size]; omega)
  · rw [Int.toNat_of_nonpos (by omega)]
    rfl

/-- An equality of ages: a window of the margin's width from the value on. -/
theorem lfuCmpAge_margin {p : LfuPred} (op : p.op = LfuOp.eq.code) {now : Int}
    (present : now < 2 ^ 63) (stamp : UInt32)
    : lfuCmpAge p now stamp = true
      ↔ p.val.toNat ≤ age now stamp
        ∧ age now stamp < (p.val.toNat + p.val2.toNat) % 2 ^ 64 := by
  unfold lfuCmpAge
  rw [op, LfuOp.ofCode?_code]
  simp only [beq_self_eq_true, if_true, Bool.and_eq_true, decide_eq_true_eq, ge_iff_le,
    UInt64.le_iff_toNat_le, UInt64.lt_iff_toNat_lt, UInt64.toNat_add, lfuAge_toNat present]

/-- The window of a margin of at most a day is that of the unit exactly when the unit is no
more than a day, or no age can reach the end of the day.
-/
theorem age_window_iff {total unit : Nat} (fits : total < 2 ^ 64)
    : (∀ a < 2 ^ 63,
        (total ≤ a ∧ a < (total + min 86400 unit) % 2 ^ 64) ↔ (total ≤ a ∧ a < total + unit))
      ↔ unit ≤ 86400 ∨ 2 ^ 63 ≤ total + 86400 := by
  constructor
  · intro law
    by_contra neither
    obtain ⟨large, early⟩ := not_or.mp neither
    have inside := (law (total + 86400) (by omega)).mpr (by omega)
    omega
  · rintro (small | late) a below
    · omega
    · omega

/-- A bare age matches exactly the ages within one of its smallest unit if and only if that
unit is at most a day, or the total is so large that no age goes beyond the day after it.
-/
theorem bare_age_iff (compiled : Compiled ns f) (room : f.n ≠ lfuMaxPred) (opt : TimeOpt)
    (arg : TimeArg) (fits : arg.total < 2 ^ 64)
    : ∃ result p,
        lfuFilterOpt ns f opt.opt arg.text = some result
        ∧ result.rc = 0
        ∧ result.filter.preds = f.preds ++ [p]
        ∧ (∀ rec now, tier0Hit p rec now = some (lfuCmpAge p now (opt.stamp rec)))
        ∧ ((∀ now stamp, now < 2 ^ 63 →
              (lfuCmpAge p now stamp = true
                ↔ arg.total ≤ age now stamp ∧ age now stamp < arg.total + arg.smallest))
            ↔ arg.smallest ≤ 86400 ∨ 2 ^ 63 ≤ arg.total + 86400) := by
  have made (fld : LfuField)
      : compileTime f fld arg.text
        = pushPred f fld .eq (UInt64.ofNat arg.total)
            (UInt64.ofNat (min 86400 arg.smallest)) := by
    unfold compileTime
    simp only [arg.lfuParseSign_text, lfuParseTime_text arg fits, arg.least_smallest]
  obtain ⟨neg, succeeded, appended⟩ := pushPred_appends compiled room opt.field .eq
    (UInt64.ofNat arg.total) (UInt64.ofNat (min 86400 arg.smallest))
  have total : (UInt64.ofNat arg.total).toNat = arg.total := UInt64.toNat_ofNat_of_lt' fits
  have margin : (UInt64.ofNat (min 86400 arg.smallest)).toNat = min 86400 arg.smallest :=
    UInt64.toNat_ofNat_of_lt' (by simp only [UInt64.size]; omega)
  refine ⟨_, _, ?_, succeeded, appended, ?_, ?_⟩
  · cases opt <;> exact congrArg some (made _)
  · intro rec now
    cases opt <;> rfl
  · rw [← age_window_iff fits]
    constructor
    · intro law a below
      have here := law a 0 (by omega)
      rw [lfuCmpAge_margin rfl (by omega)] at here
      have same : age a 0 = a := by simp [age]
      rw [same] at here
      simpa only [total, margin] using here
    · intro law now stamp present
      rw [lfuCmpAge_margin rfl present]
      simpa only [total, margin] using law (age now stamp) (by unfold age; omega)

theorem bare_age_iff_week
    : ∃ result p,
        lfuFilterOpt noNames {} .mtime (decimal 1 ++ cstr "w") = some result
        ∧ result.filter.preds = [p]
        ∧ ¬∀ now stamp, now < 2 ^ 63 →
            (lfuCmpAge p now stamp = true
              ↔ 604800 ≤ age now stamp ∧ age now stamp < 604800 + 604800) := by
  obtain ⟨result, p, ran, _, appended, _, law⟩ :=
    bare_age_iff .empty (by decide) .mtime ⟨[(1, .w)], none, .inl (by simp)⟩ (by decide)
  exact ⟨result, p, ran, appended, fun holds => absurd (law.mp holds) (by decide)⟩

/-- `--mtime 1w` does not match an age of eight days. -/
theorem bare_age_one_week
    : (lfuFilterOpt noNames {} .mtime (cstr "1w")).map
        (fun result => (result.rc, result.filter.preds.map fun p => lfuCmpAge p 691200 0))
      = some (0, [false]) := by
  decide

end LfuScan.Filter

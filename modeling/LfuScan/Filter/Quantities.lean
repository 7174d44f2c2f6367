import LfuScan.Filter.Units
import LfuScan.Foundations.Literal
import Mathlib.Data.Rat.Floor

/-! The quantities the option parsers accept, and the numbers they make of them. An accepted
argument is a literal with a unit; what it is worth is a rational number, without any bound.
The parsers compute in 64 bits, so they are exact as long as nothing wraps.
-/

namespace LfuScan.Filter

open LfuScan.Lustre LfuScan.Foundations

-----------------------------------------------------------------------------------------
-- Sizes
-----------------------------------------------------------------------------------------

/-- What stands after the whole part of a size: nothing, a point, or a point and a number. -/
inductive Fraction
  | absent
  | empty
  | digits (lit : Literal 10)

namespace Fraction

def text : Fraction → Bytes
  | absent => []
  | empty => [ch '.']
  | digits lit => ch '.' :: lit.text

def numerator : Fraction → Int
  | absent | empty => 0
  | digits lit => lit.value

def places : Fraction → Nat
  | absent | empty => 0
  | digits lit => lit.digits.length

def value (fraction : Fraction) : ℚ := fraction.numerator / 10 ^ fraction.places

/-- The characters after the point, blanks and sign included: the parser takes each of them for
a decimal place.
-/
def width : Fraction → Nat
  | absent | empty => 0
  | digits lit => lit.text.length

/-- Only digits, and so few that the power of ten they are over fits. -/
def plain : Fraction → Bool
  | absent | empty => true
  | digits lit => lit.front.isEmpty && lit.digits.length ≤ 19

/-- The parser's fraction of a unit is the right one. With only digits, at most 19 of them, the
product must not wrap. In any other fraction the number may be cut, the product may wrap and
the power of ten may be the wrong one, and the quotient must be right in spite of that.
-/
def Kept (fraction : Fraction) (unit : Nat) : Prop :=
  if fraction.plain then
    fraction.numerator * unit < 2 ^ 64
  else
    min fraction.numerator.toNat (2 ^ 64 - 1) * unit % 2 ^ 64 / (10 ^ fraction.width % 2 ^ 64)
      = fraction.numerator.toNat * unit / 10 ^ fraction.places

end Fraction

/-- A size as it is written. The whole part takes all the digits there are. -/
structure SizeArg where
  whole : Literal 0
  fraction : Fraction
  suffix : SizeSuffix
  unit : Bytes
  spelt : unit ∈ suffix.spellings
  ended : isDigit whole.base (firstChar (fraction.text ++ unit)) = false

/-- The bytes of a unit, where a bare number is in units of `units`. -/
def SizeSuffix.over (units : UInt64) : SizeSuffix → Nat
  | .bare => units.toNat
  | suffix => suffix.bytes

namespace SizeArg

def text (arg : SizeArg) : Bytes := arg.whole.text ++ (arg.fraction.text ++ arg.unit)

def bytes (arg : SizeArg) (units : UInt64) : Int :=
  ⌊(arg.whole.value + arg.fraction.value : ℚ) * (arg.suffix.over units : ℚ)⌋

/-- The parser's value is that of the argument, which has no negative number in it. -/
structure Exact (arg : SizeArg) (units v : UInt64) : Prop where
  whole : 0 ≤ arg.whole.value
  fraction : 0 ≤ arg.fraction.numerator
  value : (v.toNat : Int) = arg.bytes units

/-- No number is negative, the fraction of the unit is right, and the result fits. -/
structure Fits (arg : SizeArg) (units : UInt64) : Prop where
  whole : 0 ≤ arg.whole.value
  fraction : 0 ≤ arg.fraction.numerator
  kept : arg.fraction.Kept (arg.suffix.over units)
  bytes : arg.bytes units < 2 ^ 64

end SizeArg

-- The text of what is accepted

theorem sizeFraction_text (text : Bytes)
    : ∃ fraction : Fraction, text = fraction.text ++ (sizeFraction text).2.2 := by
  unfold sizeFraction
  split
  · rename_i point
    have split := cons_of_firstChar (beq_iff_eq.mp point) (by decide)
    dsimp only
    cases converted : (strtoull text.tail 10).converted with
    | false =>
        refine ⟨.empty, split.trans ?_⟩
        rw [(strtoull_unconverted converted).2]
        rfl
    | true =>
        obtain ⟨lit, read⟩ := strtoull_converted converted
        exact ⟨.digits lit, split.trans (congrArg (ch '.' :: ·) read.text)⟩
  · exact ⟨.absent, rfl⟩

/-- What a unit letter is worth is what its suffix is. -/
theorem sizeUnit_suffix {c : UInt8} {mult : UInt64} (known : sizeUnit? c = some mult)
    : ∃ suffix : SizeSuffix, [c] ∈ suffix.spellings := by
  have each : ∀ n : Fin 256, sizeUnit? (UInt8.ofNat n) = none
      ∨ ∃ suffix ∈ [SizeSuffix.b, .c, .k, .m, .g, .t, .p, .e],
          [UInt8.ofNat n] ∈ suffix.spellings := by
    decide +kernel
  have here := each ⟨c.toNat, c.toNat_lt⟩
  rw [UInt8.ofNat_toNat, known] at here
  obtain unknown | ⟨suffix, _, spelt⟩ := here
  · cases unknown
  · exact ⟨suffix, spelt⟩

/-- What follows the number is a unit, or nothing. -/
theorem unit_suffix {text : Bytes} {units mult : UInt64}
    (named : sizeMult? units text = some mult)
    : ∃ suffix : SizeSuffix, text ∈ suffix.spellings := by
  match text with
  | [] => exact ⟨.bare, by decide⟩
  | [unit] => exact sizeUnit_suffix named
  | _ :: _ :: _ => cases named

theorem lfuParseSize_text {arg : Bytes} {units v : UInt64}
    (accepted : lfuParseSize arg units = .value v)
    : ∃ q : SizeArg, q.text = arg := by
  unfold lfuParseSize at accepted
  dsimp only at accepted
  split at accepted
  · cases accepted
  rename_i good
  rw [Bool.or_eq_true, not_or, Bool.not_eq_true', Bool.not_eq_false, Bool.not_eq_true] at good
  obtain ⟨whole, read⟩ := strtoull_converted good.1
  obtain ⟨fraction, rest⟩ := sizeFraction_text (strtoull arg 0).rest
  split at accepted
  · cases accepted
  rename_i mult named
  obtain ⟨suffix, spelt⟩ := unit_suffix named
  have ended := read.stop
  rw [rest] at ended
  refine ⟨⟨whole, fraction, suffix, _, spelt, ended⟩, ?_⟩
  rw [SizeArg.text, ← rest]
  exact read.text.symm

-- What the parser makes of such a text

theorem suffix_over {suffix : SizeSuffix} {text : Bytes} (spelt : text ∈ suffix.spellings)
    (units : UInt64)
    : ∃ mult, sizeMult? units text = some mult ∧ mult.toNat = suffix.over units := by
  obtain ⟨_, _, _, ⟨rfl, _⟩ | ⟨one, named⟩⟩ := suffix_facts suffix text spelt
  · refine ⟨units, rfl, ?_⟩
    cases suffix with
    | bare => rfl
    | _ => exact absurd spelt (by decide)
  · rw [one]
    refine ⟨_, named, ?_⟩
    cases suffix with
    | bare =>
        rw [one] at spelt
        exact absurd spelt (by simp [SizeSuffix.spellings])
    | _ => rfl

theorem strtoull_unit {suffix : SizeSuffix} {text : Bytes} (spelt : text ∈ suffix.spellings)
    : (strtoull text 10).value = 0 ∧ (strtoull text 10).rest = text := by
  refine strtoull_unconverted ?_
  have each : ∀ text ∈ suffix.spellings, (strtoull text 10).converted = false := by
    cases suffix <;> decide
  exact each text spelt

namespace Fraction

/-- The number the parser has for a fraction. -/
def converted : Fraction → UInt64
  | absent | empty => 0
  | digits lit => lit.converted

/-- A number that is not negative is cut to 64 bits. -/
theorem toNat_converted {fraction : Fraction} (positive : 0 ≤ fraction.numerator)
    : fraction.converted.toNat = min fraction.numerator.toNat (2 ^ 64 - 1) := by
  cases fraction with
  | absent | empty => rfl
  | digits lit =>
      show lit.converted.toNat = min lit.value.toNat (2 ^ 64 - 1)
      have positive : 0 ≤ lit.value := positive
      by_cases large : 2 ^ 64 ≤ lit.magnitude
      · have unsigned : lit.value = lit.magnitude := by
          unfold Literal.value at positive ⊢
          split
          · rename_i minus
            rw [if_pos minus] at positive
            omega
          · rfl
        rw [Literal.converted, if_pos large, unsigned, Int.toNat_natCast,
          Nat.min_eq_right (by omega)]
        rfl
      · have same := lit.toNat_converted (Nat.not_le.mp large) positive
        have small := lit.converted.toNat_lt
        omega

theorem plain_facts {fraction : Fraction} (plain : fraction.plain = true)
    : fraction.width = fraction.places ∧ fraction.places ≤ 19
      ∧ 0 ≤ fraction.numerator ∧ fraction.numerator < 10 ^ fraction.places := by
  cases fraction with
  | absent | empty => simp [width, places, numerator]
  | digits lit =>
      simp only [Fraction.plain, Bool.and_eq_true, List.isEmpty_iff, decide_eq_true_eq] at plain
      obtain ⟨front, few⟩ := plain
      have ten : lit.base = 10 := lit.base_eq (by decide) (by decide)
      have below : lit.magnitude < lit.base ^ lit.digits.length :=
        numeral_lt (by rw [ten]; decide) lit.digital
      rw [ten] at below
      refine ⟨?_, few, ?_, ?_⟩
      · rw [width, Literal.text, front]
        rfl
      · rw [numerator, lit.value_of_front front]
        exact Int.natCast_nonneg _
      · rw [numerator, lit.value_of_front front]
        exact_mod_cast below

end Fraction

theorem sizeFraction_read {suffix : SizeSuffix} {unit : Bytes} (spelt : unit ∈ suffix.spellings)
    (fraction : Fraction)
    : sizeFraction (fraction.text ++ unit) = (fraction.converted, 10 ^ fraction.width, unit) := by
  obtain ⟨stop, plain, point, _⟩ := suffix_facts suffix unit spelt
  cases fraction with
  | absent =>
      rw [Fraction.text, List.nil_append, sizeFraction, if_neg (by simpa using point)]
      rfl
  | empty =>
      obtain ⟨zero, rest⟩ := strtoull_unit spelt
      rw [Fraction.text, List.singleton_append, sizeFraction, if_pos (by rfl)]
      dsimp only [List.tail_cons]
      rw [zero, rest, Nat.sub_self]
      rfl
  | digits lit =>
      have ten : lit.base = 10 := lit.base_eq (by decide) (by decide)
      rw [Fraction.text, List.cons_append, sizeFraction, if_pos (by rfl), List.tail_cons,
        strtoull_literal lit (by decide) (by rwa [ten]) plain]
      dsimp only
      rw [List.length_append, Nat.add_sub_cancel]
      rfl

theorem toNat_ten_pow (places : Nat) : ((10 : UInt64) ^ places).toNat = 10 ^ places % 2 ^ 64 := by
  induction places with
  | zero => rfl
  | succ places ih =>
      rw [UInt64.pow_succ, UInt64.toNat_mul, ih, Nat.pow_succ, Nat.mod_mul_mod]
      rfl

/-- A quotient that is taken after the product has wrapped is right just when it has not. -/
theorem wrapped_div_iff (product : Nat) {power : Nat} (positive : 0 < power)
    (small : power ≤ 2 ^ 64)
    : product % 2 ^ 64 / power = product / power ↔ product < 2 ^ 64 := by
  constructor
  · intro same
    by_contra large
    have large : 2 ^ 64 ≤ product := Nat.not_lt.mp large
    -- the wrapped product is short by at least one power, and so is its quotient
    have less : product % 2 ^ 64 ≤ product - power := by
      have parts := Nat.mod_add_div product (2 ^ 64)
      have quotient : 1 ≤ product / 2 ^ 64 := Nat.div_pos large (by decide)
      omega
    have fewer : product % 2 ^ 64 / power ≤ (product - power) / power :=
      Nat.div_le_div_right less
    have step : (product - power) / power + 1 = product / power := by
      rw [← Nat.add_div_right _ positive, Nat.sub_add_cancel (by omega)]
    omega
  · intro fits
    rw [Nat.mod_eq_of_lt fits]

/-- A sum that wraps is right just when its second part is and the sum fits. -/
theorem wrapped_add_iff (whole : Nat) {part : Nat} (exact_ : Nat) (small : part < 2 ^ 64)
    : (whole + part) % 2 ^ 64 = whole + exact_
      ↔ part = exact_ ∧ whole + exact_ < 2 ^ 64 := by
  omega

theorem Fraction.kept_iff {fraction : Fraction} (positive : 0 ≤ fraction.numerator) (unit : Nat)
    : fraction.Kept unit
      ↔ fraction.converted.toNat * unit % 2 ^ 64 / (10 ^ fraction.width % 2 ^ 64)
        = fraction.numerator.toNat * unit / 10 ^ fraction.places := by
  unfold Kept
  split
  · rename_i plain
    obtain ⟨width, few, _, below⟩ := Fraction.plain_facts plain
    have most : 10 ^ fraction.places ≤ 10 ^ 19 := Nat.pow_le_pow_right (by decide) few
    have numerator : fraction.converted.toNat = fraction.numerator.toNat := by
      rw [Fraction.toNat_converted positive]
      have small : fraction.numerator < ((10 ^ fraction.places : Nat) : Int) := by
        exact_mod_cast below
      omega
    have power : 10 ^ fraction.places % 2 ^ 64 = 10 ^ fraction.places :=
      Nat.mod_eq_of_lt (Nat.lt_of_le_of_lt most (by decide))
    rw [width, power, numerator, wrapped_div_iff _ (Nat.pow_pos (by decide))
      (Nat.le_trans most (by decide))]
    have cast : ((fraction.numerator.toNat * unit : Nat) : Int) = fraction.numerator * unit := by
      rw [Int.natCast_mul, Int.toNat_of_nonneg positive]
    rw [← cast]
    exact_mod_cast Iff.rfl
  · rw [Fraction.toNat_converted positive]

theorem SizeArg.bytes_eq (arg : SizeArg) (units : UInt64) (positive : 0 ≤ arg.whole.value)
    (fraction : 0 ≤ arg.fraction.numerator)
    : arg.bytes units
      = ((arg.whole.value.toNat * arg.suffix.over units
          + arg.fraction.numerator.toNat * arg.suffix.over units / 10 ^ arg.fraction.places
          : Nat) : Int) := by
  obtain ⟨whole, integral⟩ := Int.eq_ofNat_of_zero_le positive
  obtain ⟨numerator, fractional⟩ := Int.eq_ofNat_of_zero_le fraction
  unfold bytes Fraction.value
  rw [integral, fractional, Int.toNat_natCast, Int.toNat_natCast]
  have sum : (((whole : Int) : ℚ) + ((numerator : Int) : ℚ) / 10 ^ arg.fraction.places)
        * (arg.suffix.over units : ℚ)
      = ((whole * arg.suffix.over units : Nat) : Int)
        + ((numerator * arg.suffix.over units : Nat) : ℚ)
          / ((10 ^ arg.fraction.places : Nat) : ℚ) := by
    push_cast
    ring
  rw [sum, Int.floor_intCast_add, Rat.floor_natCast_div_natCast]
  push_cast
  rfl

/-- What the 64-bit arithmetic of the parser makes of an accepted size. -/
theorem lfuParseSize_value {q : SizeArg} {units v : UInt64}
    (accepted : lfuParseSize q.text units = .value v) (positive : 0 ≤ q.whole.value)
    : v.toNat
      = (q.whole.value.toNat * q.suffix.over units
          + q.fraction.converted.toNat * q.suffix.over units % 2 ^ 64
            / (10 ^ q.fraction.width % 2 ^ 64)) % 2 ^ 64 := by
  obtain ⟨_, plain, _⟩ := suffix_facts q.suffix q.unit q.spelt
  obtain ⟨mult, named, worth⟩ := suffix_over q.spelt units
  have unmarked : tolower (firstChar (q.fraction.text ++ q.unit)) ≠ ch 'x' := by
    cases q.fraction with
    | absent => exact plain
    | empty | digits => exact ne_of_beq_false rfl
  unfold lfuParseSize at accepted
  simp only [SizeArg.text, strtoull_literal q.whole (by decide) q.ended unmarked,
    sizeFraction_read q.spelt, named] at accepted
  split at accepted
  · cases accepted
  rename_i inRange
  have integral := q.whole.toNat_converted (by simpa using inRange) positive
  split at accepted
  · cases accepted
  obtain rfl : q.whole.converted * mult + q.fraction.converted * mult / 10 ^ q.fraction.width
      = v :=
    SizeParse.value.inj accepted
  rw [UInt64.toNat_add, UInt64.toNat_mul, UInt64.toNat_div, UInt64.toNat_mul, toNat_ten_pow,
    Nat.mod_add_mod, worth, ← integral, Int.toNat_natCast]

theorem lfuParseSize_exact_iff {q : SizeArg} {units v : UInt64}
    (accepted : lfuParseSize q.text units = .value v)
    : q.Exact units v ↔ q.Fits units := by
  by_cases positive : 0 ≤ q.whole.value ∧ 0 ≤ q.fraction.numerator
  · obtain ⟨whole, fraction⟩ := positive
    have bytes := q.bytes_eq units whole fraction
    have sums := wrapped_add_iff (q.whole.value.toNat * q.suffix.over units)
      (q.fraction.numerator.toNat * q.suffix.over units / 10 ^ q.fraction.places)
      (Nat.lt_of_le_of_lt (Nat.div_le_self _ (10 ^ q.fraction.width % 2 ^ 64))
        (Nat.mod_lt (q.fraction.converted.toNat * q.suffix.over units) (by decide)))
    rw [← lfuParseSize_value accepted whole, ← Fraction.kept_iff fraction] at sums
    constructor
    · intro exact_
      have value := exact_.value
      rw [bytes, Int.natCast_inj] at value
      obtain ⟨kept, small⟩ := sums.mp value
      exact ⟨whole, fraction, kept, by rw [bytes]; exact_mod_cast small⟩
    · intro fits
      have small := fits.bytes
      rw [bytes] at small
      refine ⟨whole, fraction, ?_⟩
      rw [bytes, Int.natCast_inj]
      exact sums.mpr ⟨fits.kept, by exact_mod_cast small⟩
  · exact ⟨fun exact_ => absurd ⟨exact_.whole, exact_.fraction⟩ positive,
      fun fits => absurd ⟨fits.whole, fits.fraction⟩ positive⟩

-----------------------------------------------------------------------------------------
-- Ages
-----------------------------------------------------------------------------------------

/-- A number, which takes all the digits there are, and its unit. -/
structure AgeTerm where
  number : Literal 0
  unit : TimeUnit
  ended : isDigit number.base unit.letter = false

def AgeTerm.text (term : AgeTerm) : Bytes := term.number.text ++ [term.unit.letter]

/-- An age as it is written: numbers with a unit, then perhaps one without, in days. -/
structure AgeArg where
  terms : List AgeTerm
  last : Option (Literal 0)

namespace AgeArg

def text (arg : AgeArg) : Bytes :=
  arg.terms.flatMap AgeTerm.text ++ (arg.last.map Literal.text).getD []

def numbers (arg : AgeArg) : List (Literal 0) := arg.terms.map (·.number) ++ arg.last.toList

def seconds (arg : AgeArg) : Int :=
  (arg.terms.map fun term => term.number.value * (term.unit.seconds : Int)).sum
    + (arg.last.map (·.value * 86400)).getD 0

/-- No number is negative. -/
def Positive (arg : AgeArg) : Prop := ∀ number ∈ arg.numbers, 0 ≤ number.value

/-- The parser's value is that of the argument, which has no negative number in it. -/
structure Exact (arg : AgeArg) (secs : UInt64) : Prop where
  positive : arg.Positive
  value : (secs.toNat : Int) = arg.seconds

structure Fits (arg : AgeArg) : Prop where
  positive : arg.Positive
  seconds : arg.seconds < 2 ^ 64

/-- One more term in front. -/
def cons (term : AgeTerm) (arg : AgeArg) : AgeArg := { arg with terms := term :: arg.terms }

theorem text_cons (term : AgeTerm) (arg : AgeArg)
    : (arg.cons term).text = term.number.text ++ term.unit.letter :: arg.text := by
  simp [cons, text, AgeTerm.text]

theorem seconds_cons (term : AgeTerm) (arg : AgeArg)
    : (arg.cons term).seconds = term.number.value * term.unit.seconds + arg.seconds := by
  simp [cons, seconds, Int.add_assoc]

theorem positive_cons {term : AgeTerm} {arg : AgeArg} (positive : (arg.cons term).Positive)
    : 0 ≤ term.number.value ∧ arg.Positive :=
  List.forall_mem_cons.mp positive

end AgeArg

theorem timeUnit_read {text after : Bytes} {unit : UInt64}
    (known : timeUnit? text = some (unit, after))
    : (text = [] ∧ after = [] ∧ unit.toNat = 86400)
      ∨ ∃ named : TimeUnit, text = named.letter :: after ∧ unit.toNat = named.seconds := by
  cases text with
  | nil =>
      cases known
      exact .inl ⟨rfl, rfl, rfl⟩
  | cons c rest =>
      have read (named : TimeUnit) (letter : c = named.letter)
          (same : some (UInt64.ofNat named.seconds, rest) = some (unit, after))
          : ∃ named : TimeUnit, c :: rest = named.letter :: after
              ∧ unit.toNat = named.seconds := by
        cases same
        exact ⟨named, by rw [letter], by cases named <;> rfl⟩
      unfold timeUnit? at known
      simp only [beq_iff_eq] at known
      right
      split at known
      · exact read .y ‹_› known
      split at known
      · exact read .w ‹_› known
      split at known
      · exact read .d ‹_› known
      split at known
      · exact read .h ‹_› known
      split at known
      · exact read .m ‹_› known
      split at known
      · exact read .s ‹_› known
      · cases known

/-- A term the loop has read: a number, then a unit. -/
theorem timeTerms_term {left : Nat} {c : UInt8} {rest : Bytes} {total small secs margin : UInt64}
    (accepted : timeTerms (left + 1) (c :: rest) total small = some (secs, margin))
    : ∃ (number : Literal 0) (follows after : Bytes) (unit sum least : UInt64),
        c :: rest = number.text ++ follows
        ∧ isDigit number.base (firstChar follows) = false
        ∧ timeUnit? follows = some (unit, after)
        ∧ timeTerms left after sum least = some (secs, margin) := by
  rw [timeTerms.eq_def] at accepted
  dsimp only at accepted
  generalize c :: rest = text at accepted ⊢
  split at accepted
  · cases accepted
  rename_i good
  rw [Bool.or_eq_true, not_or, Bool.not_eq_true', Bool.not_eq_false, Bool.not_eq_true] at good
  obtain ⟨number, read⟩ := strtoull_converted good.1
  split at accepted
  · cases accepted
  rename_i known
  exact ⟨number, _, _, _, _, _, read.text, read.stop, known, accepted⟩

/-- What the loop accepts is the text of an age. -/
theorem timeTerms_text {left : Nat} {text : Bytes} {total small secs margin : UInt64}
    (accepted : timeTerms left text total small = some (secs, margin))
    : ∃ arg : AgeArg, arg.text = text := by
  induction left generalizing text total small with
  | zero =>
      cases text with
      | nil => exact ⟨⟨[], none⟩, rfl⟩
      | cons => cases accepted
  | succ left ih =>
      cases text with
      | nil => exact ⟨⟨[], none⟩, rfl⟩
      | cons c rest =>
          obtain ⟨number, follows, after, unit, sum, least, spelt, stop, known, accepted⟩ :=
            timeTerms_term accepted
          rcases timeUnit_read known with ⟨rfl, rfl, _⟩ | ⟨named, rfl, _⟩
          · refine ⟨⟨[], some number⟩, ?_⟩
            rw [spelt, List.append_nil]
            rfl
          · obtain ⟨arg, text⟩ := ih accepted
            exact ⟨arg.cons ⟨number, named, stop⟩, by rw [AgeArg.text_cons, text, spelt]⟩

/-- A literal in front is read, and the loop goes on behind its unit. -/
theorem timeTerms_number {left : Nat} {number : Literal 0} {follows after : Bytes}
    {unit total small secs margin : UInt64}
    (stop : isDigit number.base (firstChar follows) = false)
    (plain : tolower (firstChar follows) ≠ ch 'x')
    (named : timeUnit? follows = some (unit, after))
    (accepted : timeTerms left (number.text ++ follows) total small = some (secs, margin))
    : number.magnitude < 2 ^ 64
      ∧ ∃ left least,
          timeTerms left after (total + number.converted * unit) least = some (secs, margin) := by
  have read := strtoull_literal number (by decide) stop plain
  obtain ⟨c, rest, split⟩ : ∃ c rest, number.text ++ follows = c :: rest :=
    List.exists_cons_of_ne_nil (by simp [Literal.text, number.nonempty])
  rw [split] at read accepted
  cases left with
  | zero => cases accepted
  | succ left =>
      rw [timeTerms.eq_def] at accepted
      simp only [read, named] at accepted
      split at accepted
      · cases accepted
      rename_i inRange
      exact ⟨by simpa using inRange, left, _, accepted⟩

/-- A number and its unit, in seconds. -/
theorem term_seconds {number : Literal 0} {value unit : UInt64} {seconds : Nat}
    (same : (value.toNat : Int) = number.value) (worth : unit.toNat = seconds)
    : value * unit = UInt64.ofNat (number.value * seconds).toNat := by
  rw [← same, ← worth, ← Int.natCast_mul, Int.toNat_natCast, UInt64.ofNat_mul,
    UInt64.ofNat_toNat, UInt64.ofNat_toNat]

/-- The loop adds up the terms, modulo `2^64`. -/
theorem timeTerms_sum {left : Nat} (terms : List AgeTerm) (last : Option (Literal 0))
    {total small secs margin : UInt64}
    (accepted : timeTerms left (AgeArg.text ⟨terms, last⟩) total small = some (secs, margin))
    (positive : AgeArg.Positive ⟨terms, last⟩)
    : 0 ≤ AgeArg.seconds ⟨terms, last⟩
      ∧ secs = total + UInt64.ofNat (AgeArg.seconds ⟨terms, last⟩).toNat := by
  induction terms generalizing left total small with
  | nil =>
      cases last with
      | none =>
          rw [show AgeArg.text ⟨[], none⟩ = [] from rfl, timeTerms_end] at accepted
          obtain ⟨rfl, _⟩ := Prod.mk.inj (Option.some.inj accepted)
          exact ⟨Int.le_refl 0, (UInt64.add_zero _).symm⟩
      | some number =>
          have first : 0 ≤ number.value := positive number List.mem_cons_self
          have seconds : AgeArg.seconds ⟨[], some number⟩ = number.value * 86400 :=
            Int.zero_add _
          rw [show AgeArg.text ⟨[], some number⟩ = number.text ++ [] from
            (List.append_nil _).symm] at accepted
          have days : timeUnit? [] = some (86400, []) := rfl
          obtain ⟨inRange, left, least, accepted⟩ :=
            timeTerms_number rfl (by decide) days accepted
          rw [timeTerms_end] at accepted
          obtain ⟨rfl, _⟩ := Prod.mk.inj (Option.some.inj accepted)
          rw [seconds]
          exact ⟨Int.mul_nonneg first (by decide),
            congrArg (total + ·) (term_seconds (number.toNat_converted inRange first) rfl)⟩
  | cons term terms ih =>
      have parts : 0 ≤ term.number.value ∧ AgeArg.Positive ⟨terms, last⟩ :=
        AgeArg.positive_cons positive
      obtain ⟨first, others⟩ := parts
      rw [show AgeArg.text ⟨term :: terms, last⟩ = _ from
        AgeArg.text_cons term ⟨terms, last⟩] at accepted
      obtain ⟨_, plain, named, _, short⟩ :=
        letter_facts term.unit (AgeArg.text ⟨terms, last⟩)
      obtain ⟨inRange, left, least, accepted⟩ :=
        timeTerms_number term.ended plain named accepted
      obtain ⟨nonneg, sum⟩ := ih accepted others
      have here : 0 ≤ term.number.value * term.unit.seconds :=
        Int.mul_nonneg first (Int.natCast_nonneg _)
      have worth : (UInt64.ofNat term.unit.seconds).toNat = term.unit.seconds :=
        UInt64.toNat_ofNat_of_lt' short
      rw [show AgeArg.seconds ⟨term :: terms, last⟩ = _ from
        AgeArg.seconds_cons term ⟨terms, last⟩]
      refine ⟨Int.add_nonneg here nonneg, ?_⟩
      rw [sum, term_seconds (term.number.toNat_converted inRange first) worth,
        UInt64.add_assoc, ← UInt64.ofNat_add, Int.toNat_add here nonneg]

theorem lfuParseTime_text_of {arg : Bytes} {secs margin : UInt64}
    (accepted : lfuParseTime arg = some (secs, margin))
    : ∃ q : AgeArg, q.text = arg := by
  unfold lfuParseTime at accepted
  split at accepted
  · cases accepted
  · exact timeTerms_text accepted

theorem lfuParseTime_exact_iff {q : AgeArg} {secs margin : UInt64}
    (accepted : lfuParseTime q.text = some (secs, margin))
    : q.Exact secs ↔ q.Fits := by
  unfold lfuParseTime at accepted
  split at accepted
  · cases accepted
  have value (positive : q.Positive) : 0 ≤ q.seconds ∧ secs.toNat = q.seconds.toNat % 2 ^ 64 := by
    obtain ⟨nonneg, sum⟩ := timeTerms_sum q.terms q.last accepted positive
    refine ⟨nonneg, ?_⟩
    rw [sum, UInt64.zero_add, UInt64.toNat_ofNat']
  refine ⟨fun exact_ => ⟨exact_.positive, ?_⟩, fun fits => ⟨fits.positive, ?_⟩⟩
  · rw [← exact_.value]
    exact_mod_cast secs.toNat_lt
  · obtain ⟨nonneg, same⟩ := value fits.positive
    have small := fits.seconds
    rw [same, Nat.mod_eq_of_lt (by omega)]
    exact Int.toNat_of_nonneg nonneg

-----------------------------------------------------------------------------------------
-- Both parsers
-----------------------------------------------------------------------------------------

/-- What is accepted is the text of literals with units, and it is given its exact value if and
only if no number is negative, the fraction of the unit comes out right and the value fits in
64 bits.
-/
theorem accepted_quantities_exact_iff (arg : Bytes)
    : (∀ units v,
        lfuParseSize arg units = .value v
          → (∃ q : SizeArg, q.text = arg)
            ∧ ∀ q : SizeArg, q.text = arg → (q.Exact units v ↔ q.Fits units))
      ∧ ∀ secs margin,
          lfuParseTime arg = some (secs, margin)
            → (∃ q : AgeArg, q.text = arg)
              ∧ ∀ q : AgeArg, q.text = arg → (q.Exact secs ↔ q.Fits) := by
  refine ⟨fun units v accepted => ⟨lfuParseSize_text accepted, ?_⟩,
    fun secs margin accepted => ⟨lfuParseTime_text_of accepted, ?_⟩⟩
  · rintro q rfl
    exact lfuParseSize_exact_iff accepted
  · rintro q rfl
    exact lfuParseTime_exact_iff accepted

/-- A decimal number without a sign. -/
def plainNumber (n : Nat) (first : firstChar (decimal n) ≠ ch '0') : Literal 0 where
  blanks := []
  sign := none
  mark := []
  base := 10
  digits := decimal n
  blank := nofun
  radix := .decimal first
  nonempty := by
    obtain ⟨d, rest, split, _⟩ := decimal_head n
    rw [split]
    exact List.cons_ne_nil _ _
  digital := decimal_digits n

/-- Decimal places without a sign. -/
def decimalPlaces (digits : Bytes) (nonempty : digits ≠ [])
    (digital : digits.all (isDigit 10) = true)
    : Literal 10 where
  blanks := []
  sign := none
  mark := []
  base := 10
  digits
  blank := nofun
  radix := .given (by decide)
  nonempty
  digital := List.all_eq_true.mp digital

/-- `1.5K`, one with twenty decimal places, which are zeros, and one week and a day. -/
theorem accepted_quantities_exact_small
    : (∃ q : SizeArg, q.text = cstr "1.5K" ∧ q.Fits 512 ∧ q.Exact 512 1536)
      ∧ (∃ q : SizeArg, q.text = cstr "1.00000000000000000000k" ∧ q.fraction.plain = false
          ∧ q.Fits 512 ∧ q.Exact 512 1024)
      ∧ ∃ q : AgeArg, q.text = cstr "1w1" ∧ q.Fits ∧ q.Exact 691200 := by
  refine ⟨?_, ?_, ?_⟩
  · let q : SizeArg :=
      ⟨plainNumber 1 (by decide), .digits (decimalPlaces (cstr "5") (by decide) (by decide)), .k,
        cstr "K", by decide, by decide⟩
    have text : q.text = cstr "1.5K" := by decide +kernel
    have fits : q.Fits 512 := by
      refine ⟨by decide +kernel, by decide +kernel, ?_, ?_⟩
      · rw [Fraction.Kept, if_pos (by decide +kernel)]
        decide +kernel
      · rw [q.bytes_eq 512 (by decide +kernel) (by decide +kernel)]
        decide +kernel
    obtain ⟨_, law⟩ :=
      (accepted_quantities_exact_iff (cstr "1.5K")).1 512 1536 (by decide +kernel)
    exact ⟨q, text, fits, (law q text).mpr fits⟩
  · let q : SizeArg :=
      ⟨plainNumber 1 (by decide),
        .digits (decimalPlaces (cstr "00000000000000000000") (by decide) (by decide)), .k,
        cstr "k", by decide, by decide⟩
    have text : q.text = cstr "1.00000000000000000000k" := by decide +kernel
    have fits : q.Fits 512 := by
      refine ⟨by decide +kernel, by decide +kernel, ?_, ?_⟩
      · rw [Fraction.Kept, if_neg (by decide +kernel)]
        decide +kernel
      · rw [q.bytes_eq 512 (by decide +kernel) (by decide +kernel)]
        decide +kernel
    obtain ⟨_, law⟩ :=
      (accepted_quantities_exact_iff (cstr "1.00000000000000000000k")).1 512 1024
        (by decide +kernel)
    exact ⟨q, text, by decide +kernel, fits, (law q text).mpr fits⟩
  · let q : AgeArg :=
      ⟨[⟨plainNumber 1 (by decide), .w, by decide⟩], some (plainNumber 1 (by decide))⟩
    have text : q.text = cstr "1w1" := by decide +kernel
    have fits : q.Fits := by
      refine ⟨?_, by decide +kernel⟩
      intro number member
      have same : number = plainNumber 1 (by decide) := by
        rcases List.mem_cons.mp member with rfl | member
        · rfl
        · exact List.mem_singleton.mp member
      rw [same]
      decide +kernel
    obtain ⟨_, law⟩ :=
      (accepted_quantities_exact_iff (cstr "1w1")).2 691200 86400 (by decide +kernel)
    exact ⟨q, text, fits, (law q text).mpr fits⟩

/-- `16E` is 0 bytes, `-1c` the largest size there is, one and a half KiB written with twenty
decimal places 1026 bytes, and 213503982334602 days are less than one.
-/
theorem quantities_wrap
    : (∃ q : SizeArg, q.text = cstr "16E" ∧ q.bytes 512 = 2 ^ 64
        ∧ lfuParseSize (cstr "16E") 512 = .value 0)
      ∧ lfuParseSize (cstr "-1c") 512 = .value (UInt64.ofNat (2 ^ 64 - 1))
      ∧ (∃ q : SizeArg, q.text = cstr "1.50000000000000000000k" ∧ q.bytes 512 = 1536
          ∧ lfuParseSize (cstr "1.50000000000000000000k") 512 = .value 1026)
      ∧ ∃ q : AgeArg, q.text = cstr "213503982334602d" ∧ q.seconds = 213503982334602 * 86400
          ∧ lfuParseTime (cstr "213503982334602d") = some (61184, 86400) := by
  refine ⟨?_, by decide +kernel, ?_, ?_⟩
  · let q : SizeArg :=
      ⟨plainNumber 16 (by decide), .absent, .e, cstr "E", by decide, by decide⟩
    refine ⟨q, by decide +kernel, ?_, by decide +kernel⟩
    exact (q.bytes_eq 512 (by decide +kernel) (by decide)).trans (by decide +kernel)
  · let q : SizeArg :=
      ⟨plainNumber 1 (by decide),
        .digits (decimalPlaces (cstr "50000000000000000000") (by decide) (by decide)), .k,
        cstr "k", by decide, by decide⟩
    refine ⟨q, by decide +kernel, ?_, by decide +kernel⟩
    exact (q.bytes_eq 512 (by decide +kernel) (by decide +kernel)).trans (by decide +kernel)
  · exact ⟨⟨[⟨plainNumber 213503982334602 (by decide +kernel), .d, by decide⟩], none⟩,
      by decide +kernel, by decide +kernel, by decide +kernel⟩

end LfuScan.Filter

import LfuScan.Foundations.Decimal
import Mathlib.Data.List.Infix
import Mathlib.Data.List.TakeWhile

/-! Integer literals as `strtoull` takes them, with their values as integers without a bound.
Whatever `strtoull` converts is such a literal, and where its value is not negative and fits
the conversion gives that value.
-/

namespace LfuScan.Foundations

inductive Sign
  | plus
  | minus
deriving DecidableEq, Repr

def Sign.text : Sign → UInt8
  | .plus => ch '+'
  | .minus => ch '-'

/-- How the base of a literal is known: `asked` is the base the caller gave, 0 if the text is
to show it; then come the mark in the text, the base, and the digits.
-/
inductive Radix : Nat → List UInt8 → Nat → List UInt8 → Prop
  | given {base : Nat} {digits : List UInt8} (positive : base ≠ 0) : Radix base [] base digits
  | decimal {digits : List UInt8} (first : firstChar digits ≠ ch '0') : Radix 0 [] 10 digits
  | octal {digits : List UInt8} (first : firstChar digits = ch '0') : Radix 0 [] 8 digits
  | hex {asked : Nat} {x : UInt8} {digits : List UInt8} (may : asked = 0 ∨ asked = 16)
    (mark : tolower x = ch 'x')
    : Radix asked [ch '0', x] 16 digits

/-- A literal: blanks, a sign, the mark of a base, digits. -/
structure Literal (asked : Nat) where
  blanks : List UInt8
  sign : Option Sign
  mark : List UInt8
  base : Nat
  digits : List UInt8
  blank : ∀ c ∈ blanks, isSpace c = true
  radix : Radix asked mark base digits
  nonempty : digits ≠ []
  digital : ∀ c ∈ digits, isDigit base c = true

namespace Literal

variable {asked : Nat} (lit : Literal asked)

/-- What stands before the digits. -/
def front : List UInt8 := lit.blanks ++ (lit.sign.map Sign.text).toList ++ lit.mark

def text : List UInt8 := lit.front ++ lit.digits

def magnitude : Nat := numeral lit.base lit.digits

def value : Int := if lit.sign = some .minus then -lit.magnitude else lit.magnitude

/-- What `strtoull` makes of it: a magnitude that does not fit becomes the largest number there
is, whatever the sign.
-/
def converted : UInt64 :=
  if 2 ^ 64 ≤ lit.magnitude then
    UInt64.ofNat (2 ^ 64 - 1)
  else if lit.sign = some .minus then
    0 - UInt64.ofNat lit.magnitude
  else
    UInt64.ofNat lit.magnitude

theorem toNat_converted (fits : lit.magnitude < 2 ^ 64) (positive : 0 ≤ lit.value)
    : (lit.converted.toNat : Int) = lit.value := by
  have same : (UInt64.ofNat lit.magnitude).toNat = lit.magnitude :=
    UInt64.toNat_ofNat_of_lt' fits
  unfold value at positive ⊢
  rw [converted, if_neg (Nat.not_le.mpr fits)]
  by_cases minus : lit.sign = some .minus
  · -- minus zero
    rw [if_pos minus] at positive
    have zero : lit.magnitude = 0 := by omega
    simp [minus, zero]
  · simp [minus, same]

/-- The base is the one that was asked for, unless the text may show it. -/
theorem base_eq (given : asked ≠ 0) (plain : asked ≠ 16) : lit.base = asked := by
  have radix := lit.radix
  generalize lit.base = base, lit.mark = mark, lit.digits = digits at radix
  cases radix with
  | given => rfl
  | decimal | octal => exact absurd rfl given
  | hex may => exact absurd may (not_or.mpr ⟨given, plain⟩)

theorem value_of_front (none_ : lit.front = []) : lit.value = lit.magnitude := by
  have unsigned : lit.sign = none := by
    cases signed : lit.sign with
    | none => rfl
    | some sign => simp [front, signed] at none_
  rw [value, unsigned]
  rfl

end Literal

theorem numeral_lt {base : Nat} (positive : 0 < base) {digits : List UInt8}
    (digital : ∀ c ∈ digits, isDigit base c = true)
    : numeral base digits < base ^ digits.length := by
  have grows (total : Nat)
      : digits.foldl (fun total c => total * base + (digitValue? c).getD 0) total
        < (total + 1) * base ^ digits.length := by
    induction digits generalizing total with
    | nil => simp
    | cons c rest ih =>
        have value : (digitValue? c).getD 0 < base := by
          have digit := digital c List.mem_cons_self
          unfold isDigit at digit
          cases found : digitValue? c with
          | none => exact positive
          | some value => simpa [found] using digit
        have rest := ih (fun d member => digital d (List.mem_cons_of_mem _ member))
          (total * base + (digitValue? c).getD 0)
        rw [List.foldl_cons, List.length_cons, Nat.pow_succ']
        refine Nat.lt_of_lt_of_le rest ?_
        rw [← Nat.mul_assoc]
        refine Nat.mul_le_mul_right _ ?_
        rw [Nat.add_one_mul]
        omega
  unfold numeral
  simpa using grows 0

-----------------------------------------------------------------------------------------
-- What is converted
-----------------------------------------------------------------------------------------

theorem cons_of_firstChar {s : List UInt8} {c : UInt8} (first : firstChar s = c)
    (proper : c ≠ 0)
    : s = c :: s.tail := by
  cases s with
  | nil => exact absurd first.symm proper
  | cons d rest => rw [show d = c from first, List.tail_cons]

theorem numeralSign_text (s : List UInt8)
    : ∃ sign : Option Sign,
        s = (sign.map Sign.text).toList ++ (numeralSign s).2
        ∧ (numeralSign s).1 = decide (sign = some .minus) := by
  cases s with
  | nil => exact ⟨none, rfl, rfl⟩
  | cons c rest =>
      unfold numeralSign
      dsimp only
      split
      · rename_i minus
        exact ⟨some .minus, by rw [beq_iff_eq.mp minus]; rfl, rfl⟩
      split
      · rename_i plus
        exact ⟨some .plus, by rw [beq_iff_eq.mp plus]; rfl, rfl⟩
      · exact ⟨none, rfl, rfl⟩

theorem numeralBase_text (asked : Nat) (s : List UInt8)
    : ∃ mark,
        s = mark ++ (numeralBase asked s).2
        ∧ ∀ digits, firstChar digits = firstChar (numeralBase asked s).2
            → Radix asked mark (numeralBase asked s).1 digits := by
  unfold numeralBase
  dsimp only
  split
  · rename_i hex
    simp only [Bool.and_eq_true, Bool.or_eq_true, beq_iff_eq] at hex
    obtain ⟨⟨⟨may, zero⟩, x⟩, _⟩ := hex
    have first := cons_of_firstChar zero (by decide)
    have second := cons_of_firstChar (c := firstChar s.tail) rfl fun none_ => by
      rw [none_] at x
      exact absurd x (by decide)
    refine ⟨[ch '0', firstChar s.tail], ?_, fun _ _ => .hex may x⟩
    nth_rewrite 1 [first, second]
    rfl
  split
  · rename_i shown
    cases beq_iff_eq.mp shown
    refine ⟨[], rfl, fun digits same => ?_⟩
    change firstChar digits = firstChar s at same
    by_cases zero : firstChar s = ch '0'
    · rw [if_pos (beq_iff_eq.mpr zero)]
      exact .octal (same.trans zero)
    · rw [if_neg (by simpa using zero)]
      exact .decimal (same ▸ zero)
  · rename_i given
    exact ⟨[], rfl, fun _ _ => .given (by simpa using given)⟩

theorem firstChar_takeWhile {p : UInt8 → Bool} {s : List UInt8} (some_ : s.takeWhile p ≠ [])
    : firstChar (s.takeWhile p) = firstChar s := by
  cases s with
  | nil => rfl
  | cons c rest =>
      by_cases taken : p c = true
      · rw [List.takeWhile_cons_of_pos taken]
        rfl
      · rw [List.takeWhile_cons_of_neg taken] at some_
        exact absurd rfl some_

theorem firstChar_drop_takeWhile {p : UInt8 → Bool} (ended : p 0 = false) {s : List UInt8}
    : p (firstChar (s.drop (s.takeWhile p).length)) = false := by
  induction s with
  | nil => exact ended
  | cons c rest ih =>
      by_cases taken : p c = true
      · rw [List.takeWhile_cons_of_pos taken]
        exact ih
      · rw [List.takeWhile_cons_of_neg taken]
        exact Bool.eq_false_iff.mpr taken

/-- What `strtoull` did with a literal. -/
structure Converted {asked : Nat} (lit : Literal asked) (s : List UInt8) (result : Strtoull)
    : Prop where
  text : s = lit.text ++ result.rest
  stop : isDigit lit.base (firstChar result.rest) = false
  erange : result.erange = decide (2 ^ 64 ≤ lit.magnitude)
  number : result.value = lit.converted

theorem Converted.magnitude_lt {asked : Nat} {lit : Literal asked} {s : List UInt8}
    {result : Strtoull} (read : Converted lit s result) (good : result.erange = false)
    : lit.magnitude < 2 ^ 64 := by
  have range := read.erange
  rw [good] at range
  exact Nat.not_le.mp (of_decide_eq_false range.symm)

theorem Converted.value {asked : Nat} {lit : Literal asked} {s : List UInt8}
    {result : Strtoull} (read : Converted lit s result) (fits : lit.magnitude < 2 ^ 64)
    (positive : 0 ≤ lit.value)
    : (result.value.toNat : Int) = lit.value := by
  rw [read.number]
  exact lit.toNat_converted fits positive

theorem strtoull_converted {s : List UInt8} {asked : Nat}
    (converted : (strtoull s asked).converted = true)
    : ∃ lit : Literal asked, Converted lit s (strtoull s asked) := by
  have blanks : s = s.takeWhile isSpace ++ s.dropWhile isSpace :=
    List.takeWhile_append_dropWhile.symm
  obtain ⟨sign, signed, negative⟩ := numeralSign_text (s.dropWhile isSpace)
  unfold strtoull at converted ⊢
  dsimp only at converted ⊢
  generalize numeralSign (s.dropWhile isSpace) = trimmed at signed negative converted ⊢
  obtain ⟨mark, marked, radix⟩ := numeralBase_text asked trimmed.2
  generalize numeralBase asked trimmed.2 = based at marked radix converted ⊢
  split at converted
  · cases converted
  rename_i some_
  rw [if_neg some_]
  have nonempty : based.2.takeWhile (isDigit based.1) ≠ [] := by simpa using some_
  let lit : Literal asked := {
    blanks := s.takeWhile isSpace
    sign
    mark
    base := based.1
    digits := based.2.takeWhile (isDigit based.1)
    blank := fun c member => List.mem_takeWhile_imp member
    radix := radix _ (firstChar_takeWhile nonempty)
    nonempty
    digital := fun c member => List.mem_takeWhile_imp member
  }
  have text : s = lit.text ++ based.2.drop (based.2.takeWhile (isDigit based.1)).length := by
    have digits := List.prefix_append_drop (List.takeWhile_prefix (isDigit based.1) (l := based.2))
    simp only [lit, Literal.text, Literal.front, List.append_assoc]
    rw [← digits, ← marked, ← signed]
    exact blanks
  have stop : isDigit lit.base
      (firstChar (based.2.drop (based.2.takeWhile (isDigit based.1)).length)) = false :=
    firstChar_drop_takeWhile rfl
  have magnitude : numeral based.1 (based.2.takeWhile (isDigit based.1)) = lit.magnitude := rfl
  refine ⟨lit, ?_⟩
  have signs : lit.sign = sign := rfl
  rw [magnitude, negative]
  split
  · rename_i large
    refine ⟨text, stop, (decide_eq_true large).symm, ?_⟩
    rw [Literal.converted, if_pos large]
  · rename_i fits
    refine ⟨text, stop, (decide_eq_false fits).symm, ?_⟩
    rw [Literal.converted, if_neg fits, signs]
    by_cases minus : sign = some .minus <;> simp [minus]

theorem strtoull_unconverted {s : List UInt8} {asked : Nat}
    (unconverted : (strtoull s asked).converted = false)
    : (strtoull s asked).value = 0 ∧ (strtoull s asked).rest = s := by
  unfold strtoull at unconverted ⊢
  dsimp only at unconverted ⊢
  split at unconverted
  · rename_i none_
    rw [if_pos none_]
    exact ⟨rfl, rfl⟩
  · split at unconverted <;> cases unconverted

/-- A magnitude that does not fit gives the largest number there is. -/
theorem strtoull_saturated {s : List UInt8} {asked : Nat}
    (saturated : (strtoull s asked).erange = true)
    : (strtoull s asked).value = UInt64.ofNat (2 ^ 64 - 1) := by
  unfold strtoull at saturated ⊢
  dsimp only at saturated ⊢
  split at saturated
  · cases saturated
  rename_i some_
  rw [if_neg some_]
  split at saturated
  · rename_i large
    rw [if_pos large]
  · cases saturated

-----------------------------------------------------------------------------------------
-- Literals are read back
-----------------------------------------------------------------------------------------

/-- A digit is neither a blank nor a sign, and below base 33 it is no mark either. -/
theorem isDigit_facts {base : Nat} {c : UInt8} (digit : isDigit base c = true)
    : isSpace c = false ∧ c ≠ ch '-' ∧ c ≠ ch '+' ∧ (base ≤ 16 → tolower c ≠ ch 'x') := by
  have each : ∀ n : Fin 256, digitValue? (UInt8.ofNat n) = none
      ∨ isSpace (UInt8.ofNat n) = false ∧ UInt8.ofNat n ≠ ch '-' ∧ UInt8.ofNat n ≠ ch '+'
        ∧ (tolower (UInt8.ofNat n) = ch 'x' → digitValue? (UInt8.ofNat n) = some 33) := by
    decide +kernel
  have here := each ⟨c.toNat, c.toNat_lt⟩
  rw [UInt8.ofNat_toNat] at here
  rcases here with none_ | ⟨space, minus, plus, mark⟩
  · rw [isDigit, none_] at digit
    cases digit
  · refine ⟨space, minus, plus, fun small x => ?_⟩
    rw [isDigit, mark x, Option.any_some, decide_eq_true_eq] at digit
    omega

namespace Literal

variable {asked : Nat} (lit : Literal asked)

theorem digits_cons : ∃ c tail, lit.digits = c :: tail ∧ isDigit lit.base c = true := by
  cases split : lit.digits with
  | nil => exact absurd split lit.nonempty
  | cons c tail => exact ⟨c, tail, rfl, lit.digital c (by rw [split]; exact List.mem_cons_self)⟩

/-- What comes after the sign begins with a digit or with the zero of a mark. -/
theorem unsigned_cons (rest : List UInt8)
    : ∃ c tail, lit.mark ++ lit.digits ++ rest = c :: tail
        ∧ isSpace c = false ∧ c ≠ ch '-' ∧ c ≠ ch '+' := by
  have first : ∃ c tail, lit.mark ++ lit.digits = c :: tail
      ∧ isSpace c = false ∧ c ≠ ch '-' ∧ c ≠ ch '+' := by
    obtain ⟨c, tail, split, digit⟩ := lit.digits_cons
    obtain ⟨space, minus, plus, _⟩ := isDigit_facts digit
    have radix := lit.radix
    generalize lit.base = base, lit.mark = mark, lit.digits = digits at radix split ⊢
    cases radix with
    | given | decimal | octal => exact ⟨c, tail, split, space, minus, plus⟩
    | hex => exact ⟨ch '0', _, rfl, by decide, by decide, by decide⟩
  obtain ⟨c, tail, split, facts⟩ := first
  exact ⟨c, tail ++ rest, by rw [split, List.cons_append], facts⟩

theorem numeralSign_unsigned (rest : List UInt8)
    : numeralSign ((lit.sign.map Sign.text).toList ++ (lit.mark ++ lit.digits ++ rest))
      = (decide (lit.sign = some .minus), lit.mark ++ lit.digits ++ rest) := by
  obtain ⟨c, tail, split, _, minus, plus⟩ := lit.unsigned_cons rest
  rcases lit.sign with _ | (_ | _)
  · rw [split]
    simp [numeralSign, minus, plus]
  · rfl
  · rfl

theorem dropWhile_blanks (rest : List UInt8)
    : (lit.text ++ rest).dropWhile isSpace
      = (lit.sign.map Sign.text).toList ++ (lit.mark ++ lit.digits ++ rest) := by
  have stop : ∃ c tail, (lit.sign.map Sign.text).toList ++ (lit.mark ++ lit.digits ++ rest)
      = c :: tail ∧ isSpace c = false := by
    obtain ⟨c, tail, split, space, _⟩ := lit.unsigned_cons rest
    rcases lit.sign with _ | sign
    · exact ⟨c, tail, split, space⟩
    · exact ⟨sign.text, _, rfl, by cases sign <;> decide⟩
  obtain ⟨c, tail, split, space⟩ := stop
  have whole : lit.text ++ rest = lit.blanks ++ (c :: tail) := by
    rw [← split]
    simp [text, front]
  rw [whole, List.dropWhile_append_of_pos lit.blank, List.dropWhile_cons_of_neg (by simp [space]),
    split]

/-- The base is found, where no mark can be made of what follows. -/
theorem numeralBase_marked {rest : List UInt8} (other : asked ≠ 16)
    (plain : tolower (firstChar rest) ≠ ch 'x')
    : numeralBase asked (lit.mark ++ lit.digits ++ rest) = (lit.base, lit.digits ++ rest) := by
  obtain ⟨c, tail, split, digit⟩ := lit.digits_cons
  have digital := lit.digital
  have radix := lit.radix
  generalize lit.mark = mark, lit.base = base, lit.digits = digits at *
  subst split
  cases radix with
  | given positive => simp [numeralBase, positive, other]
  | decimal first =>
      have first : c ≠ ch '0' := first
      simp [numeralBase, firstChar, first]
  | octal first =>
      have first : c = ch '0' := first
      have second : tolower (firstChar (tail ++ rest)) ≠ ch 'x' := by
        cases tail with
        | nil => exact plain
        | cons d tail =>
            exact (isDigit_facts (digital d (by simp))).2.2.2 (by decide)
      simp [numeralBase, firstChar, first] at second ⊢
      exact fun x => absurd x second
  | @hex _ x _ may mark =>
      have zero : asked = 0 := may.resolve_right other
      simp [numeralBase, firstChar, zero, mark, digit]

end Literal

/-- `strtoull` reads a literal up to its end. -/
theorem strtoull_literal {asked : Nat} (lit : Literal asked) {rest : List UInt8}
    (other : asked ≠ 16) (stop : isDigit lit.base (firstChar rest) = false)
    (plain : tolower (firstChar rest) ≠ ch 'x')
    : strtoull (lit.text ++ rest) asked
      = {
          value := lit.converted
          rest
          converted := true
          erange := decide (2 ^ 64 ≤ lit.magnitude)
        } := by
  have digits : (lit.digits ++ rest).takeWhile (isDigit lit.base) = lit.digits :=
    takeWhile_stop lit.digital stop
  have nonempty : lit.digits.isEmpty = false := by
    rw [List.isEmpty_eq_false_iff]
    exact lit.nonempty
  unfold strtoull
  simp only [lit.dropWhile_blanks, lit.numeralSign_unsigned, lit.numeralBase_marked other plain,
    digits, nonempty, List.drop_left, Bool.false_eq_true, if_false]
  rw [Literal.converted, ← Literal.magnitude]
  split
  · rename_i large
    rw [decide_eq_true large]
  · rename_i fits
    rw [decide_eq_false fits]
    simp only [decide_eq_true_eq]

end LfuScan.Foundations

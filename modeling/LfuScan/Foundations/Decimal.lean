import LfuScan.Foundations.CString

/-! Numerals in a base up to 16, and that `strtoull` reads decimal ones back. -/

namespace LfuScan.Foundations

/-- The numeral of a number. -/
def digits (base n : Nat) : List UInt8 := (Nat.toDigits base n).map ch

/-- The decimal numeral of a number. -/
def decimal (n : Nat) : List UInt8 := digits 10 n

/-- The character of a digit. -/
def digit (n : Nat) : UInt8 := ch (Nat.digitChar n)

/-- The digits are what a conversion takes them for, and nothing else. -/
theorem digit_facts {n : Nat} (small : n < 16)
    : digitValue? (digit n) = some n
      ∧ isSpace (digit n) = false
      ∧ digit n ≠ ch '-' ∧ digit n ≠ ch '+'
      ∧ (digit n = ch '0' ↔ n = 0) := by
  have each : ∀ n : Fin 16,
      digitValue? (digit n) = some n.val
      ∧ isSpace (digit n) = false
      ∧ digit n ≠ ch '-' ∧ digit n ≠ ch '+'
      ∧ (digit n = ch '0' ↔ n.val = 0) := by
    decide
  exact each ⟨n, small⟩

theorem isDigit_digit {base n : Nat} (within : n < base) (small : base ≤ 16)
    : isDigit base (digit n) = true := by
  rw [isDigit, (digit_facts (Nat.lt_of_lt_of_le within small)).1]
  simpa using within

section Base

variable {base : Nat}

/-- Numerals grow at their end. -/
theorem digits_induction (two : 2 ≤ base) {motive : Nat → List UInt8 → Prop}
    (one : ∀ n < base, motive n [digit n])
    (more : ∀ n d, 1 ≤ n → d < base → motive n (digits base n)
      → motive (base * n + d) (digits base n ++ [digit d]))
    (n : Nat)
    : motive n (digits base n) := by
  induction n using Nat.strongRecOn with
  | _ n ih =>
      by_cases small : n < base
      · rw [digits, Nat.toDigits_of_lt_base small]
        exact one n small
      · have large : base ≤ n := Nat.le_of_not_lt small
        have step := more (n / base) (n % base) (Nat.div_pos large (by omega))
          (Nat.mod_lt _ (by omega)) (ih (n / base) (Nat.div_lt_self (by omega) two))
        rw [digits, Nat.toDigits_of_base_le two large, List.map_append]
        rwa [Nat.div_add_mod] at step

theorem isDigit_digits (two : 2 ≤ base) (small : base ≤ 16) (n : Nat)
    : ∀ c ∈ digits base n, isDigit base c = true := by
  refine digits_induction two (motive := fun _ text => ∀ c ∈ text, isDigit base c = true)
    (fun n within c member => ?_) (fun n d _ within ih c member => ?_) n
  · rw [List.mem_singleton.mp member]
    exact isDigit_digit within small
  · rcases List.mem_append.mp member with front | last
    · exact ih c front
    · rw [List.mem_singleton.mp last]
      exact isDigit_digit within small

theorem numeral_digits (two : 2 ≤ base) (small : base ≤ 16) (n : Nat)
    : numeral base (digits base n) = n := by
  refine digits_induction two (motive := fun n text => numeral base text = n)
    (fun n within => ?_) (fun n d _ within ih => ?_) n
  · simp [numeral, (digit_facts (Nat.lt_of_lt_of_le within small)).1]
  · rw [numeral, List.foldl_append, ← numeral, ih]
    simp [(digit_facts (Nat.lt_of_lt_of_le within small)).1, Nat.mul_comm]

/-- The first digit, which is zero only for zero. -/
theorem digits_head (two : 2 ≤ base) (n : Nat)
    : ∃ d rest, digits base n = digit d :: rest ∧ d < base ∧ (d = 0 → n = 0 ∧ rest = []) := by
  refine digits_induction two
    (motive := fun n text =>
      ∃ d rest, text = digit d :: rest ∧ d < base ∧ (d = 0 → n = 0 ∧ rest = []))
    (fun n small => ⟨n, [], rfl, small, fun zero => ⟨zero, rfl⟩⟩)
    (fun n d positive small ih => ?_) n
  obtain ⟨first, rest, split, below, leading⟩ := ih
  refine ⟨first, rest ++ [digit d], by rw [split, List.cons_append], below, fun zero => ?_⟩
  exact absurd (leading zero).1 (by omega)

end Base

theorem decimal_digits (n : Nat) : ∀ c ∈ decimal n, isDigit 10 c = true :=
  isDigit_digits (by decide) (by decide) n

theorem numeral_decimal (n : Nat) : numeral 10 (decimal n) = n :=
  numeral_digits (by decide) (by decide) n

theorem decimal_head (n : Nat)
    : ∃ d rest, decimal n = digit d :: rest ∧ d < 10 ∧ (d = 0 → n = 0 ∧ rest = []) :=
  digits_head (by decide) n

theorem isDigit_mono {base wider : Nat} (le : base ≤ wider) {c : UInt8}
    (digit : isDigit base c = true)
    : isDigit wider c = true := by
  unfold isDigit at digit ⊢
  cases found : digitValue? c with
  | none =>
      rw [found] at digit
      cases digit
  | some value =>
      rw [found, Option.any_some, decide_eq_true_eq] at digit
      rw [Option.any_some, decide_eq_true_eq]
      omega

/-- A zero that no hexadecimal mark follows asks for base 8. -/
theorem numeralBase_zero {rest : List UInt8} (plain : tolower (firstChar rest) ≠ ch 'x')
    : numeralBase 0 (digit 0 :: rest) = (8, digit 0 :: rest) := by
  have notHex : (tolower (firstChar rest) == ch 'x') = false := by simpa using plain
  unfold numeralBase
  simp only [List.tail_cons, notHex, Bool.and_false, Bool.false_and]
  rfl

theorem takeWhile_stop {p : UInt8 → Bool} {front rest : List UInt8} (all : ∀ c ∈ front, p c)
    (stop : p (firstChar rest) = false)
    : (front ++ rest).takeWhile p = front := by
  have none_ : rest.takeWhile p = [] := by
    cases rest with
    | nil => rfl
    | cons c rest => exact List.takeWhile_cons_of_neg (by simpa [firstChar] using stop)
  rw [List.takeWhile_append_of_pos all, none_, List.append_nil]

/-- `strtoull` on a decimal numeral, once the base it reads it in is known. -/
theorem strtoull_numeral {n asked base : Nat} (fits : n < 2 ^ 64) {rest : List UInt8}
    (chosen : numeralBase asked (decimal n ++ rest) = (base, decimal n ++ rest))
    (digits : (decimal n ++ rest).takeWhile (isDigit base) = decimal n)
    (value : numeral base (decimal n) = n)
    : strtoull (decimal n ++ rest) asked
      = { value := UInt64.ofNat n, rest, converted := true, erange := false } := by
  obtain ⟨d, tail, split, small, _⟩ := decimal_head n
  obtain ⟨_, space, minus, plus, _⟩ := digit_facts (Nat.lt_of_lt_of_le small (by decide))
  have text : decimal n ++ rest = digit d :: (tail ++ rest) := by rw [split, List.cons_append]
  have trimmed : (decimal n ++ rest).dropWhile isSpace = decimal n ++ rest := by
    rw [text, List.dropWhile_cons_of_neg (by simp [space])]
  have unsigned : numeralSign (decimal n ++ rest) = (false, decimal n ++ rest) := by
    rw [text, numeralSign, if_neg (by simpa using minus), if_neg (by simpa using plus)]
  have nonempty : (decimal n).isEmpty = false := by rw [split]; rfl
  unfold strtoull
  simp only [trimmed, unsigned, chosen, digits, value, nonempty, Bool.false_eq_true, if_false,
    Nat.not_le.mpr fits, List.drop_left]

/-- `strtoull` reads a numeral back, up to the first character that cannot belong to it. -/
theorem strtoull_decimal {n : Nat} (fits : n < 2 ^ 64) {rest : List UInt8}
    (stop : isDigit 10 (firstChar rest) = false) (plain : tolower (firstChar rest) ≠ ch 'x')
    : strtoull (decimal n ++ rest) 0
      = { value := UInt64.ofNat n, rest, converted := true, erange := false } := by
  obtain ⟨d, tail, split, small, leading⟩ := decimal_head n
  obtain ⟨value, _, _, _, zero⟩ := digit_facts (Nat.lt_of_lt_of_le small (by decide))
  have text : decimal n ++ rest = digit d :: (tail ++ rest) := by rw [split, List.cons_append]
  by_cases none_ : d = 0
  · -- a leading zero is the number zero, which reads the same in base 8
    obtain ⟨rfl, rfl⟩ := leading none_
    subst none_
    refine strtoull_numeral fits (show _ = (8, _) from ?_) ?_ ?_
    · rw [text]
      exact numeralBase_zero plain
    · refine takeWhile_stop (fun c member => ?_) (Bool.eq_false_iff.mpr fun octal => ?_)
      · rw [split] at member
        rw [List.mem_singleton.mp member]
        rfl
      · rw [isDigit_mono (by decide) octal] at stop
        cases stop
    · rw [split, numeral, List.foldl_cons, value]
      rfl
  · have other : ¬digit d = ch '0' := fun same => none_ (zero.mp same)
    refine strtoull_numeral fits ?_ (takeWhile_stop (decimal_digits n) stop) (numeral_decimal n)
    rw [text, numeralBase]
    simp [firstChar, other]

/-- The same where base 10 is asked for. -/
theorem strtoull_decimal_ten {n : Nat} (fits : n < 2 ^ 64) {rest : List UInt8}
    (stop : isDigit 10 (firstChar rest) = false)
    : strtoull (decimal n ++ rest) 10
      = { value := UInt64.ofNat n, rest, converted := true, erange := false } :=
  strtoull_numeral fits rfl (takeWhile_stop (decimal_digits n) stop) (numeral_decimal n)

end LfuScan.Foundations

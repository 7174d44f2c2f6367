import LfuScan.Foundations.Decimal

/-! Reading text the way `fgets` and `sscanf` do, and what they make of text that was written
for them.
-/

namespace LfuScan.Foundations

/-- The lines `fgets` returns with a buffer of `size` bytes, each with its newline: a line that
does not fit comes in pieces. `held` is the part already in the buffer.
-/
def fgetsLines (size : Nat) : List UInt8 → List UInt8 → List (List UInt8)
  | [], held => if held.isEmpty then [] else [held]
  | c :: rest, held =>
      if c == ch '\n' || held.length + 2 ≥ size then
        (held ++ [c]) :: fgetsLines size rest []
      else
        fgetsLines size rest (held ++ [c])

/-- The literal part of a format: white space in it matches any amount of white space. -/
def scanLiteral : List UInt8 → List UInt8 → Option (List UInt8)
  | [], s => some s
  | c :: format, s =>
      if isSpace c then
        scanLiteral format (s.dropWhile isSpace)
      else if s.isEmpty || firstChar s != c then
        none
      else
        scanLiteral format s.tail

/-- `%<width>s`: the word, and the text after it. -/
def scanWord (width : Nat) (s : List UInt8) : Option (List UInt8 × List UInt8) :=
  let s := s.dropWhile isSpace
  let word := (s.takeWhile (fun c => !isSpace c)).take width
  if word.isEmpty then none else some (word, s.drop word.length)

theorem fgetsLines_line {size : Nat} {line : List UInt8} (rest held : List UInt8)
    (single : ch '\n' ∉ line) (fits : held.length + line.length + 2 ≤ size)
    : fgetsLines size (line ++ ch '\n' :: rest) held
      = (held ++ line ++ [ch '\n']) :: fgetsLines size rest [] := by
  induction line generalizing held with
  | nil =>
      rw [List.nil_append, fgetsLines, if_pos (by simp), List.append_nil]
  | cons c line ih =>
      rw [List.mem_cons, not_or] at single
      rw [List.length_cons] at fits
      have inside : (c == ch '\n' || decide (held.length + 2 ≥ size)) = false := by
        rw [Bool.or_eq_false_iff, beq_eq_false_iff_ne, decide_eq_false_iff_not]
        exact ⟨fun same => single.1 same.symm, by omega⟩
      have next := ih (held ++ [c]) single.2 (by
        rw [List.length_append, List.length_singleton]
        omega)
      rw [List.cons_append, fgetsLines, inside, if_neg (by simp), next]
      simp

/-- A whole line, from an empty buffer. -/
theorem fgetsLines_whole {size : Nat} {line : List UInt8} (rest : List UInt8)
    (single : ch '\n' ∉ line) (fits : line.length + 2 ≤ size)
    : fgetsLines size (line ++ ch '\n' :: rest) []
      = (line ++ [ch '\n']) :: fgetsLines size rest [] :=
  fgetsLines_line rest [] single (by simpa using fits)

theorem dropWhile_word {word : List UInt8} (rest : List UInt8) (nonempty : word ≠ [])
    (plain : ∀ c ∈ word, isSpace c = false)
    : (word ++ rest).dropWhile isSpace = word ++ rest := by
  cases word with
  | nil => exact absurd rfl nonempty
  | cons c word => exact List.dropWhile_cons_of_neg (by simp [plain c List.mem_cons_self])

/-- A word that fits is read back. -/
theorem scanWord_word {width : Nat} {word : List UInt8} (rest : List UInt8)
    (nonempty : word ≠ []) (plain : ∀ c ∈ word, isSpace c = false) (fits : word.length ≤ width)
    (stop : rest = [] ∨ isSpace (firstChar rest) = true)
    : scanWord width (word ++ rest) = some (word, rest) := by
  have ended : rest.takeWhile (fun c => !isSpace c) = [] := by
    cases rest with
    | nil => rfl
    | cons c rest =>
        refine List.takeWhile_cons_of_neg ?_
        rcases stop with empty | space
        · cases empty
        · simpa [firstChar] using space
  have taken : (word ++ rest).takeWhile (fun c => !isSpace c) = word := by
    rw [List.takeWhile_append_of_pos (fun c member => by simp [plain c member]), ended,
      List.append_nil]
  unfold scanWord
  simp only [dropWhile_word rest nonempty plain, taken, List.take_of_length_le fits, List.drop_left]
  rw [if_neg (by simpa using nonempty)]

/-- White space in front of a word is passed over. -/
theorem scanWord_space {width : Nat} {c : UInt8} (space : isSpace c = true) (s : List UInt8)
    : scanWord width (c :: s) = scanWord width s := by
  unfold scanWord
  rw [List.dropWhile_cons_of_pos space]

/-- A format that starts with another character does not match. -/
theorem scanLiteral_mismatch {c d : UInt8} (format s : List UInt8) (space : isSpace c = false)
    (differ : d ≠ c)
    : scanLiteral (c :: format) (d :: s) = none := by
  rw [scanLiteral, space, if_neg (by simp), if_pos (by simpa [firstChar] using differ)]

end LfuScan.Foundations

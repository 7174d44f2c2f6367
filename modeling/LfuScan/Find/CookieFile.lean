import Mathlib.Data.Nat.Digits.Defs
import LfuScan.Foundations.Stdio
import LfuScan.Lustre.OnDisk
import LfuScan.Foundations.Posix

/-! The file a `--since-cookie` search keeps its anchors in: what is written is read back, for
the same filesystem and the same search root, and refused for any other.
-/

namespace LfuScan.Find

open LfuScan.Foundations LfuScan.Lustre

def nameMax : Nat := 255
def pathMax : Nat := 4096
def maxObdName : Nat := 128

/-- The last index read of each MDT, by its number; 0 is none. -/
abbrev Anchors := Nat → UInt64

/-- `%04x`. -/
def hex4 (n : Nat) : Bytes :=
  List.replicate (4 - (digits 16 n).length) (ch '0') ++ digits 16 n

/-- `%s-MDT%04x`. -/
def mdtname (fsname : Bytes) (mdt : Nat) : Bytes := fsname ++ cstr "-MDT" ++ hex4 mdt

/-- The characters a filesystem's name is made of. -/
def isFsnameChar (c : UInt8) : Bool := isDigit 36 c || c == ch '-' || c == ch '_'

/-- What a cookie is for: a filesystem and a search root, as `llapi_search_fsname` and
`realpath` give them.
-/
structure Site where
  fsname : Bytes
  root : Bytes
  named : fsname ≠ []
  plain : ∀ c ∈ fsname, isFsnameChar c = true
  short : fsname.length ≤ maxObdName
  rootText : 0 ∉ root
  rootShort : root.length ≤ pathMax

/-- A search of a whole filesystem. -/
def lustreSite : Site where
  fsname := cstr "lustre"
  root := cstr "/mnt/lustre"
  named := by decide +kernel
  plain := by decide +kernel
  short := by decide +kernel
  rootText := by decide +kernel
  rootShort := by decide +kernel

/-- What stands for a character of the root in the header. -/
def ckEscape (c : UInt8) : Bytes :=
  if c == ch '\\' then [ch '\\', ch '\\']
  else if c == ch '\n' then [ch '\\', ch 'n']
  else [c]

/-- The loop of `find_ck_escape`; `dst` is what is written so far. -/
def findCkEscape (dstsize : Nat) : Bytes → Bytes → Except Int Bytes
  | dst, [] => .ok dst
  | dst, c :: rest =>
      if dst.length + (ckEscape c).length ≥ dstsize then .error (-enametoolong)
      else findCkEscape dstsize (dst ++ ckEscape c) rest

def rootescSize : Nat := 2 * pathMax + 1

/-- The start of a header, up to the filesystem's name. -/
def cookieHeader : Bytes := cstr "# lfs find --since-cookie for "

/-- The line of an anchor; an MDT that was never anchored has none. -/
def anchorLine (fsname : Bytes) (seen : Anchors) (mdt : Nat) : Bytes :=
  if seen mdt == 0 then []
  else mdtname fsname mdt ++ [ch ' '] ++ decimal (seen mdt).toNat ++ [ch '\n']

/-- What `find_cookie_write` puts into the file. -/
def findCookieWrite (site : Site) (seen : Anchors) (nseen : Nat) : Except Int Bytes := do
  let rootesc ← findCkEscape rootescSize [] site.root
  return cookieHeader ++ site.fsname ++ cstr " under " ++ rootesc ++ [ch '\n']
    ++ (List.range nseen).flatMap (anchorLine site.fsname seen)

/-- The MDT a name stands for: the filesystem's name, and exactly four hex digits. -/
def cookieMdt? (fsname name : Bytes) : Option Nat :=
  if !(fsname ++ cstr "-MDT").isPrefixOf name then
    none
  else
    let num := name.drop (fsname.length + 4)
    if num.length != 4 || !num.all (isDigit 16) then none else some (numeral 16 num)

/-- A line that is not a header: an anchor, or ignored. -/
def cookieAnchor (fsname : Bytes) (nstarts : Nat) (starts : Anchors) (line : Bytes) : Anchors :=
  match scanWord nameMax line with
  | none => starts
  | some (name, rest) =>
      match scanWord 31 rest with
      | none => starts
      | some (idxbuf, _) =>
          if !isDigit 10 (firstChar idxbuf) then
            starts
          else
            let idx := strtoull idxbuf 10
            if idx.erange || !idx.rest.isEmpty then
              starts
            else
              match cookieMdt? fsname name with
              | none => starts
              | some mdt => if mdt ≥ nstarts then starts else Function.update starts mdt idx.value

/-- One line of a cookie. A header for another filesystem or another root is refused. -/
def cookieLine (fsname rootesc : Bytes) (nstarts : Nat) (starts : Anchors) (line : Bytes)
    : Except Int Anchors :=
  let line := line.takeWhile (· != 0)
  match (scanLiteral cookieHeader line).bind (scanWord nameMax) with
  | some (name, rest) =>
      if name != fsname then
        .error (-einval)
      else if !(cstr " under ").isPrefixOf rest then
        .error (-einval)
      else if (rest.drop 7).takeWhile (· != ch '\n') != rootesc then
        .error (-einval)
      else
        .ok starts
  | none => .ok (cookieAnchor fsname nstarts starts line)

def lineSize : Nat := 2 * pathMax + nameMax + 64

/-- The anchors a cookie holds; without the file there are none. -/
def findCookieRead (site : Site) (nstarts : Nat) (file : Option Bytes) : Except Int Anchors := do
  let rootesc ← findCkEscape rootescSize [] site.root
  match file with
  | none => return fun _ => 0
  | some text =>
      (fgetsLines lineSize text []).foldlM (cookieLine site.fsname rootesc nstarts) fun _ => 0

-----------------------------------------------------------------------------------------
-- Names
-----------------------------------------------------------------------------------------

/-- A name the lines of a cookie can carry: one word, which no header starts with. -/
structure Fsname (fsname : Bytes) : Prop where
  named : fsname ≠ []
  unspaced : ∀ c ∈ fsname, isSpace c = false
  text : 0 ∉ fsname
  unmarked : firstChar fsname ≠ ch '#'
  short : fsname.length ≤ maxObdName

theorem length_hex4 {n : Nat} (small : n < 0x10000) : (hex4 n).length = 4 := by
  have short : (digits 16 n).length ≤ 4 := by
    rw [digits, List.length_map]
    exact Nat.toDigits_length 16 n 4 (by decide) small
  rw [hex4, List.length_append, List.length_replicate]
  omega

theorem isDigit_hex4 (n : Nat) : ∀ c ∈ hex4 n, isDigit 16 c = true := by
  intro c member
  rcases List.mem_append.mp member with pad | digit
  · rw [(List.mem_replicate.mp pad).2]
    rfl
  · exact isDigit_digits (by decide) (by decide) n c digit

theorem numeral_hex4 (n : Nat) : numeral 16 (hex4 n) = n := by
  have pad (count : Nat) (rest : Bytes)
      : numeral 16 (List.replicate count (ch '0') ++ rest) = numeral 16 rest := by
    induction count with
    | zero => rfl
    | succ count ih => exact ih
  rw [hex4, pad]
  exact numeral_digits (by decide) (by decide) n

theorem cookieMdt?_mdtname (fsname : Bytes) {mdt : Nat} (small : mdt < 0x10000)
    : cookieMdt? fsname (mdtname fsname mdt) = some mdt := by
  have begins : (fsname ++ cstr "-MDT").isPrefixOf (mdtname fsname mdt) = true :=
    List.isPrefixOf_iff_prefix.mpr ⟨hex4 mdt, rfl⟩
  have rest : (mdtname fsname mdt).drop (fsname.length + 4) = hex4 mdt := by
    rw [mdtname, List.drop_left' (by rw [List.length_append]; rfl)]
  have all : (hex4 mdt).all (isDigit 16) = true := List.all_eq_true.mpr (isDigit_hex4 mdt)
  unfold cookieMdt?
  simp [begins, rest, length_hex4 small, all, numeral_hex4]

/-- What a name is made of is neither white space nor anything a line starts or ends with. -/
theorem fsnameChar_facts {c : UInt8} (plain : isFsnameChar c = true)
    : isSpace c = false ∧ c ≠ 0 ∧ c ≠ ch '#' := by
  have each : ∀ n : Fin 256, isFsnameChar (UInt8.ofNat n.val) = true →
      isSpace (UInt8.ofNat n.val) = false ∧ UInt8.ofNat n.val ≠ 0
      ∧ UInt8.ofNat n.val ≠ ch '#' := by
    decide +kernel
  have here := each ⟨c.toNat, c.toNat_lt⟩
  simp only [UInt8.ofNat_toNat] at here
  exact here plain

theorem isFsnameChar_of_isDigit {c : UInt8} {base : Nat} (small : base ≤ 36)
    (digit : isDigit base c = true)
    : isFsnameChar c = true := by
  rw [isFsnameChar, isDigit_mono small digit]
  rfl

theorem Site.fsname_ok (site : Site) : Fsname site.fsname where
  named := site.named
  unspaced c member := (fsnameChar_facts (site.plain c member)).1
  text member := (fsnameChar_facts (site.plain 0 member)).2.1 rfl
  unmarked := by
    obtain ⟨c, rest, split⟩ := List.exists_cons_of_ne_nil site.named
    rw [split]
    exact (fsnameChar_facts (site.plain c (split ▸ List.mem_cons_self))).2.2
  short := site.short

/-- Text without white space is on one line. -/
theorem single_of_unspaced {text : Bytes} (unspaced : ∀ c ∈ text, isSpace c = false)
    : ch '\n' ∉ text := fun member =>
  absurd (unspaced _ member) (by decide)

/-- A target's name is one word as well. -/
theorem mdtname_word {fsname : Bytes} (name : Fsname fsname) (mdt : Nat)
    : (∀ c ∈ mdtname fsname mdt, isSpace c = false) ∧ 0 ∉ mdtname fsname mdt := by
  have mark : ∀ c ∈ cstr "-MDT", isFsnameChar c = true := by decide +kernel
  have number (c : UInt8) (member : c ∈ hex4 mdt) : isFsnameChar c = true :=
    isFsnameChar_of_isDigit (by decide) (isDigit_hex4 mdt c member)
  constructor
  · intro c member
    rw [mdtname, List.mem_append, List.mem_append] at member
    rcases member with (member | member) | member
    · exact name.unspaced c member
    · exact (fsnameChar_facts (mark c member)).1
    · exact (fsnameChar_facts (number c member)).1
  · intro member
    rw [mdtname, List.mem_append, List.mem_append] at member
    rcases member with (member | member) | member
    · exact name.text member
    · exact (fsnameChar_facts (mark 0 member)).2.1 rfl
    · exact (fsnameChar_facts (number 0 member)).2.1 rfl

theorem length_mdtname {fsname : Bytes} (name : Fsname fsname) {mdt : Nat}
    (small : mdt < 0x10000)
    : (mdtname fsname mdt).length ≤ nameMax := by
  rw [mdtname, List.length_append, List.length_append, length_hex4 small]
  exact Nat.le_trans (Nat.add_le_add_right (Nat.add_le_add_right name.short _) _) (by decide)

/-- An index is one word. -/
theorem decimal_word (n : Nat) : (∀ c ∈ decimal n, isSpace c = false) ∧ 0 ∉ decimal n := by
  have plain (c : UInt8) (member : c ∈ decimal n) :=
    fsnameChar_facts (isFsnameChar_of_isDigit (by decide) (decimal_digits n c member))
  exact ⟨fun c member => (plain c member).1, fun member => (plain 0 member).2.1 rfl⟩

theorem length_decimal_le (idx : UInt64) : (decimal idx.toNat).length ≤ 31 := by
  rw [decimal, digits, List.length_map]
  exact Nat.toDigits_length 10 _ 31 (by decide) (Nat.lt_trans idx.toNat_lt (by decide))

/-- A root with every character escaped. -/
def escaped (root : Bytes) : Bytes := root.flatMap ckEscape

/-- An escaped root read back. The reader of a cookie never does this: it compares. -/
def unescaped : Bytes → Bytes
  | [] => []
  | [c] => [c]
  | c :: d :: rest =>
      if c == ch '\\' then
        (if d == ch 'n' then ch '\n' else d) :: unescaped rest
      else
        c :: unescaped (d :: rest)

theorem unescaped_ckEscape (c : UInt8) (rest : Bytes)
    : unescaped (ckEscape c ++ rest) = c :: unescaped rest := by
  unfold ckEscape
  split
  · rename_i backslash
    rw [beq_iff_eq.mp backslash]
    rfl
  split
  · rename_i newline
    rw [beq_iff_eq.mp newline]
    rfl
  · rename_i backslash _
    cases rest with
    | nil => rfl
    | cons d rest =>
        show unescaped (c :: d :: rest) = _
        rw [unescaped, if_neg backslash]

theorem unescaped_escaped (root : Bytes) : unescaped (escaped root) = root := by
  induction root with
  | nil => rfl
  | cons c rest ih =>
      rw [escaped, List.flatMap_cons, unescaped_ckEscape]
      exact congrArg (c :: ·) ih

/-- Different roots are written differently. -/
theorem escaped_injective : Function.Injective escaped :=
  Function.LeftInverse.injective unescaped_escaped

theorem length_ckEscape_le (c : UInt8) : (ckEscape c).length ≤ 2 := by
  unfold ckEscape
  split
  · exact Nat.le_refl 2
  split
  · exact Nat.le_refl 2
  · exact Nat.le_succ 1

theorem length_escaped_le (root : Bytes) : (escaped root).length ≤ 2 * root.length := by
  induction root with
  | nil => exact Nat.le_refl 0
  | cons c rest ih =>
      have one := length_ckEscape_le c
      rw [escaped, List.flatMap_cons, List.length_append, List.length_cons]
      rw [escaped] at ih
      omega

/-- An escaped root is on one line, and still a string. -/
theorem escaped_line {root : Bytes} (text : 0 ∉ root)
    : ch '\n' ∉ escaped root ∧ 0 ∉ escaped root := by
  have each (c : UInt8) : ch '\n' ∉ ckEscape c ∧ (c ≠ 0 → 0 ∉ ckEscape c) := by
    unfold ckEscape
    split
    · exact ⟨by decide, fun _ => by decide⟩
    split
    · exact ⟨by decide, fun _ => by decide⟩
    · rename_i newline
      refine ⟨fun member => newline ?_, fun proper member => proper ?_⟩
      · exact beq_iff_eq.mpr (List.mem_singleton.mp member).symm
      · exact (List.mem_singleton.mp member).symm
  constructor
  · intro member
    obtain ⟨c, _, here⟩ := List.mem_flatMap.mp member
    exact (each c).1 here
  · intro member
    obtain ⟨c, inside, here⟩ := List.mem_flatMap.mp member
    exact (each c).2 (fun zero => text (zero ▸ inside)) here

/-- The escape fits its buffer. -/
theorem findCkEscape_fits {dstsize : Nat} (dst src : Bytes)
    (room : dst.length + 2 * src.length < dstsize)
    : findCkEscape dstsize dst src = .ok (dst ++ escaped src) := by
  induction src generalizing dst with
  | nil => rw [escaped, List.flatMap_nil, List.append_nil, findCkEscape]
  | cons c rest ih =>
      have one := length_ckEscape_le c
      rw [List.length_cons] at room
      rw [findCkEscape, if_neg (by omega), ih (dst ++ ckEscape c) (by
        rw [List.length_append]
        omega), escaped, escaped, List.flatMap_cons, List.append_assoc]

theorem findCkEscape_root {root : Bytes} (short : root.length ≤ pathMax)
    : findCkEscape rootescSize [] root = .ok (escaped root) :=
  findCkEscape_fits [] root (by rw [rootescSize, List.length_nil]; omega)

theorem takeWhile_text {line : Bytes} (text : 0 ∉ line) : line.takeWhile (· != 0) = line := by
  have all : (line ++ []).takeWhile (· != 0) = line :=
    takeWhile_stop (fun c member => bne_iff_ne.mpr fun zero => text (zero ▸ member)) rfl
  rwa [List.append_nil] at all

/-- The first line of a cookie, without its newline. -/
def headerLine (fsname rootesc : Bytes) : Bytes :=
  cookieHeader ++ fsname ++ cstr " under " ++ rootesc

/-- A header is passed over by the search it names, and refused by any other. -/
theorem cookieLine_header {fsname : Bytes} (name : Fsname fsname) {rootesc : Bytes}
    (single : ch '\n' ∉ rootesc) (text : 0 ∉ rootesc) (reader readerRoot : Bytes) (nstarts : Nat)
    (starts : Anchors)
    : cookieLine reader readerRoot nstarts starts (headerLine fsname rootesc ++ [ch '\n'])
      = if fsname = reader ∧ rootesc = readerRoot then .ok starts else .error (-einval) := by
  have whole : 0 ∉ headerLine fsname rootesc ++ [ch '\n'] := by
    simp only [headerLine, List.mem_append, not_or]
    exact ⟨⟨⟨⟨by decide, name.text⟩, by decide⟩, text⟩, by decide⟩
  have literal (rest : Bytes) : scanLiteral cookieHeader (cookieHeader ++ rest)
      = some (rest.dropWhile isSpace) := rfl
  have short : fsname.length ≤ nameMax := Nat.le_trans name.short (by decide)
  have word := scanWord_word (cstr " under " ++ rootesc ++ [ch '\n']) name.named name.unspaced
    short (.inr rfl)
  have under : (cstr " under ").isPrefixOf (cstr " under " ++ rootesc ++ [ch '\n']) = true := rfl
  have root : ((cstr " under " ++ rootesc ++ [ch '\n']).drop 7).takeWhile (· != ch '\n')
      = rootesc :=
    takeWhile_stop (fun c member => bne_iff_ne.mpr fun newline => single (newline ▸ member)) rfl
  unfold cookieLine
  dsimp only
  rw [takeWhile_text whole, headerLine, List.append_assoc, List.append_assoc, List.append_assoc,
    ← List.append_assoc (cstr " under "), literal, Option.bind_some,
    dropWhile_word _ name.named name.unspaced, word]
  dsimp only
  rw [under, root]
  by_cases sameName : fsname = reader
  · by_cases sameRoot : rootesc = readerRoot
    · simp [sameName, sameRoot]
    · simp [sameName, sameRoot]
  · simp [sameName]

theorem cookieLine_anchor {fsname : Bytes} (name : Fsname fsname) (rootesc : Bytes) {mdt : Nat}
    (small : mdt < 0x10000) (idx : UInt64) {nstarts : Nat} (within : mdt < nstarts)
    (starts : Anchors)
    : cookieLine fsname rootesc nstarts starts
        (mdtname fsname mdt ++ [ch ' '] ++ decimal idx.toNat ++ [ch '\n'])
      = .ok (Function.update starts mdt idx) := by
  obtain ⟨unspaced, text⟩ := mdtname_word name mdt
  obtain ⟨numberUnspaced, numberText⟩ := decimal_word idx.toNat
  have whole : 0 ∉ mdtname fsname mdt ++ [ch ' '] ++ decimal idx.toNat ++ [ch '\n'] := by
    simp only [List.mem_append, not_or]
    exact ⟨⟨⟨text, by decide⟩, numberText⟩, by decide⟩
  have named : mdtname fsname mdt ≠ [] := by
    intro empty
    rw [mdtname, List.append_eq_nil_iff, List.append_eq_nil_iff] at empty
    exact name.named empty.1.1
  have noHeader (rest : Bytes)
      : scanLiteral cookieHeader (mdtname fsname mdt ++ rest) = none := by
    obtain ⟨c, others, split⟩ := List.exists_cons_of_ne_nil name.named
    have unmarked := name.unmarked
    rw [split] at unmarked
    rw [mdtname, split, List.cons_append, List.cons_append, List.cons_append]
    exact scanLiteral_mismatch _ _ rfl unmarked
  obtain ⟨d, tail, split, decimalDigit, _⟩ := decimal_head idx.toNat
  have numbered : decimal idx.toNat ≠ [] := by simp [split]
  have first : isDigit 10 (firstChar (decimal idx.toNat)) = true := by
    rw [split]
    exact isDigit_digit decimalDigit (by decide)
  have number : strtoull (decimal idx.toNat) 10
      = { value := idx, rest := [], converted := true, erange := false } := by
    have read : strtoull (decimal idx.toNat ++ []) 10 = _ := strtoull_decimal_ten idx.toNat_lt rfl
    rwa [List.append_nil, UInt64.ofNat_toNat] at read
  have words : cookieAnchor fsname nstarts starts
        (mdtname fsname mdt ++ (ch ' ' :: (decimal idx.toNat ++ [ch '\n'])))
      = Function.update starts mdt idx := by
    unfold cookieAnchor
    rw [scanWord_word _ named unspaced (length_mdtname name small) (.inr rfl)]
    dsimp only
    rw [scanWord_space rfl,
      scanWord_word _ numbered numberUnspaced (length_decimal_le idx) (.inr rfl)]
    simp only [first, number, cookieMdt?_mdtname fsname small, Nat.not_le.mpr within,
      Bool.not_true, List.isEmpty_nil, Bool.or_self, Bool.false_eq_true, if_false]
  unfold cookieLine
  dsimp only
  rw [takeWhile_text whole, List.append_assoc, List.append_assoc, List.singleton_append, noHeader]
  exact congrArg Except.ok words

-----------------------------------------------------------------------------------------
-- The whole file
-----------------------------------------------------------------------------------------

/-- The text of a cookie. -/
def cookieText (fsname rootesc : Bytes) (seen : Anchors) (nseen : Nat) : Bytes :=
  headerLine fsname rootesc ++ [ch '\n']
    ++ (List.range nseen).flatMap (anchorLine fsname seen)

theorem anchorLine_fits {fsname : Bytes} (name : Fsname fsname) (seen : Anchors) {mdt : Nat}
    (small : mdt < 0x10000)
    : let line := mdtname fsname mdt ++ [ch ' '] ++ decimal (seen mdt).toNat
      ch '\n' ∉ line ∧ line.length + 2 ≤ lineSize := by
  refine ⟨?_, ?_⟩
  · rw [List.mem_append, List.mem_append, not_or, not_or]
    exact ⟨⟨single_of_unspaced (mdtname_word name mdt).1, by decide⟩,
      single_of_unspaced (decimal_word _).1⟩
  · have length := length_mdtname name small
    have number := length_decimal_le (seen mdt)
    rw [List.length_append, List.length_append, List.length_singleton]
    simp only [lineSize, pathMax, nameMax] at length ⊢
    omega

/-- The header is one line for the reader too. -/
theorem headerLine_fits {fsname root : Bytes} (name : Fsname fsname) (text : 0 ∉ root)
    (short : root.length ≤ pathMax)
    : ch '\n' ∉ headerLine fsname (escaped root)
      ∧ (headerLine fsname (escaped root)).length + 2 ≤ lineSize := by
  refine ⟨?_, ?_⟩
  · simp only [headerLine, List.mem_append, not_or]
    exact ⟨⟨⟨by decide, single_of_unspaced name.unspaced⟩, by decide⟩, (escaped_line text).1⟩
  · have length := name.short
    have double := length_escaped_le root
    have start : cookieHeader.length = 30 := rfl
    have mark : (cstr " under ").length = 7 := rfl
    rw [headerLine, List.length_append, List.length_append, List.length_append, start, mark]
    simp only [maxObdName, lineSize, pathMax, nameMax] at short length ⊢
    omega

/-- Reading the lines of some anchors sets them. -/
theorem foldlM_anchorLines {fsname : Bytes} (name : Fsname fsname) (rootesc : Bytes)
    (seen : Anchors) {nstarts : Nat} (mdts : List Nat)
    (small : ∀ mdt ∈ mdts, seen mdt ≠ 0 → mdt < 0x10000 ∧ mdt < nstarts) (starts : Anchors)
    : (fgetsLines lineSize (mdts.flatMap (anchorLine fsname seen)) []).foldlM
        (cookieLine fsname rootesc nstarts) starts
      = .ok fun mdt => if mdt ∈ mdts ∧ seen mdt ≠ 0 then seen mdt else starts mdt := by
  induction mdts generalizing starts with
  | nil => simp [fgetsLines, pure, Except.pure]
  | cons mdt rest ih =>
      have later := ih fun other member => small other (List.mem_cons_of_mem _ member)
      rw [List.flatMap_cons]
      by_cases absent : seen mdt = 0
      · rw [anchorLine, if_pos (by simpa using absent), List.nil_append, later]
        refine congrArg Except.ok (funext fun other => ?_)
        by_cases same : other = mdt
        · simp [same, absent]
        · simp [same]
      · obtain ⟨four, within⟩ := small mdt List.mem_cons_self absent
        obtain ⟨single, fits⟩ := anchorLine_fits name seen four
        have anchor := cookieLine_anchor name rootesc four (seen mdt) within starts
        rw [anchorLine, if_neg (by simpa using absent), List.append_assoc, List.singleton_append,
          fgetsLines_whole _ single fits, List.foldlM_cons]
        refine (congrArg (· >>= _) anchor).trans ((later _).trans ?_)
        refine congrArg Except.ok (funext fun other => ?_)
        by_cases same : other = mdt
        · simp [same, absent]
        · simp [same]

/-- The lines of a cookie: its header, then the anchors. -/
theorem fgetsLines_cookieText {fsname root : Bytes} (name : Fsname fsname) (text : 0 ∉ root)
    (short : root.length ≤ pathMax) (seen : Anchors) (nseen : Nat)
    : fgetsLines lineSize (cookieText fsname (escaped root) seen nseen) []
      = (headerLine fsname (escaped root) ++ [ch '\n'])
        :: fgetsLines lineSize ((List.range nseen).flatMap (anchorLine fsname seen)) [] := by
  obtain ⟨single, fits⟩ := headerLine_fits name text short
  rw [cookieText, List.append_assoc, List.singleton_append, fgetsLines_whole _ single fits]

/-- The search that wrote a cookie reads its anchors. -/
theorem foldlM_cookieText {fsname root : Bytes} (name : Fsname fsname) (text : 0 ∉ root)
    (short : root.length ≤ pathMax) (seen : Anchors) {nseen nstarts : Nat}
    (small : ∀ mdt < nseen, seen mdt ≠ 0 → mdt < 0x10000 ∧ mdt < nstarts)
    : (fgetsLines lineSize (cookieText fsname (escaped root) seen nseen) []).foldlM
        (cookieLine fsname (escaped root) nstarts) (fun _ => 0)
      = .ok fun mdt => if mdt < nseen then seen mdt else 0 := by
  obtain ⟨single, plain⟩ := escaped_line text
  have header := cookieLine_header name single plain fsname (escaped root) nstarts fun _ => 0
  rw [if_pos ⟨rfl, rfl⟩] at header
  have lines := foldlM_anchorLines name (escaped root) seen (List.range nseen)
    (fun mdt member => small mdt (List.mem_range.mp member)) fun _ => 0
  rw [fgetsLines_cookieText name text short, List.foldlM_cons]
  refine (congrArg (· >>= _) header).trans (lines.trans ?_)
  refine congrArg Except.ok (funext fun mdt => ?_)
  by_cases below : mdt < nseen
  · by_cases absent : seen mdt = 0 <;> simp [below, absent]
  · simp [below]

theorem rootesc_of_site (site : Site)
    : findCkEscape rootescSize [] site.root = .ok (escaped site.root) :=
  findCkEscape_root site.rootShort

/-- What is written is read back, up to the MDTs that were written. -/
theorem findCookieRead_write (site : Site) (seen : Anchors) {nseen nstarts : Nat}
    (small : ∀ mdt < nseen, seen mdt ≠ 0 → mdt < 0x10000 ∧ mdt < nstarts)
    : ∃ text, findCookieWrite site seen nseen = .ok text
      ∧ findCookieRead site nstarts (some text)
        = .ok fun mdt => if mdt < nseen then seen mdt else 0 := by
  refine ⟨cookieText site.fsname (escaped site.root) seen nseen, ?_, ?_⟩
  · rw [findCookieWrite, rootesc_of_site]
    rfl
  · rw [findCookieRead, rootesc_of_site]
    exact foldlM_cookieText site.fsname_ok site.rootText site.rootShort seen small

end LfuScan.Find

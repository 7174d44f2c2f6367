import LfuScan.Find.Since

/-! The cookie's two functions with the calls they make and the array they fill: whatever
`find_cookie_write` left, the search that wrote it reads back, and any other search is refused
before an anchor is set.
-/

namespace LfuScan.Find

open LfuScan.Foundations LfuScan.Lustre

/-- How the calls of `find_cookie_write` end: 0, or a negative error. `ferror` is set when an
earlier write was lost.
-/
structure WriteCalls where
  findCookieTmp : Int := 0
  fdopen : Int := 0
  fflush : Int := 0
  ferror : Bool := false
  fsync : Int := 0
  fclose : Int := 0
  rename : Int := 0

/-- What became of the temporary before it is renamed. -/
def WriteCalls.closed (calls : WriteCalls) : Int :=
  let rc :=
    if calls.fflush != 0 then calls.fflush
    else if calls.ferror then -eio
    else if calls.fsync != 0 then calls.fsync
    else 0
  if calls.fclose != 0 && rc == 0 then calls.fclose else rc

/-- The return code, and what stands under the cookie's name afterwards. -/
def findCookieWriteTo (fsname root : Bytes) (seen : Anchors) (nseen : Nat) (calls : WriteCalls)
    (file : Option Bytes)
    : Int × Option Bytes :=
  match findCkEscape rootescSize [] root with
  | .error rc => (rc, file)
  | .ok rootesc =>
      if calls.findCookieTmp < 0 then
        (calls.findCookieTmp, file)
      else if calls.fdopen < 0 then
        (calls.fdopen, file)
      else if calls.closed != 0 then
        (calls.closed, file)
      else if calls.rename != 0 then
        (calls.rename, file)
      else
        (0, some (cookieText fsname rootesc seen nseen))

/-- What the reader gets to under the cookie's name: a call that fails with its negative
error, something that is not a regular file, or a stream, of which the reading may break off.
-/
inductive CookieOpen
  | unopened (rc : Int)
  | unstatted (rc : Int)
  | notRegular
  | unbuffered (rc : Int)
  | stream (text : Bytes) (ferror : Bool)

/-- The loop over the lines; `starts` is the caller's array. -/
def cookieLines (fsname rootesc : Bytes) (nstarts : Nat) : List Bytes → Anchors → Int × Anchors
  | [], starts => (0, starts)
  | line :: rest, starts =>
      match cookieLine fsname rootesc nstarts starts line with
      | .error rc => (rc, starts)
      | .ok starts => cookieLines fsname rootesc nstarts rest starts

/-- The return code, and the caller's array afterwards. -/
def findCookieReadInto (fsname root : Bytes) (nstarts : Nat) (file : CookieOpen)
    (starts : Anchors)
    : Int × Anchors :=
  match findCkEscape rootescSize [] root with
  | .error rc => (rc, starts)
  | .ok rootesc =>
      match file with
      -- the first run has no cookie
      | .unopened rc => (if rc == -enoent then 0 else rc, starts)
      | .unstatted rc => (rc, starts)
      | .notRegular => (-einval, starts)
      | .unbuffered rc => (rc, starts)
      | .stream text ferror =>
          let (rc, starts) :=
            cookieLines fsname rootesc nstarts (fgetsLines lineSize text []) starts
          if rc != 0 then (rc, starts) else (if ferror then -eio else 0, starts)

/-- The file is opened and read without an error. -/
def reopened : Option Bytes → CookieOpen
  | none => .unopened (-enoent)
  | some text => .stream text false

theorem cookieLines_ok {fsname rootesc : Bytes} {nstarts : Nat} {lines : List Bytes}
    {starts anchors : Anchors}
    (read : lines.foldlM (cookieLine fsname rootesc nstarts) starts = .ok anchors)
    : cookieLines fsname rootesc nstarts lines starts = (0, anchors) := by
  induction lines generalizing starts with
  | nil =>
      cases read
      rfl
  | cons line rest ih =>
      rw [List.foldlM_cons] at read
      rw [cookieLines]
      cases step : cookieLine fsname rootesc nstarts starts line with
      | error rc =>
          rw [step] at read
          cases read
      | ok next =>
          rw [step] at read
          exact ih read

-----------------------------------------------------------------------------------------
-- The cookie names its search
-----------------------------------------------------------------------------------------

/-- A path a search can start from, with room for its terminator. -/
structure SearchRoot (root : Bytes) : Prop where
  text : 0 ∉ root
  short : root.length < pathMax

theorem findCkEscape_searchRoot {root : Bytes} (path : SearchRoot root)
    : findCkEscape rootescSize [] root = .ok (escaped root) :=
  findCkEscape_root (Nat.le_of_lt path.short)

/-- A cookie that was written is whole. -/
theorem findCookieWriteTo_written {fsname root : Bytes} (path : SearchRoot root) {seen : Anchors}
    {nseen : Nat} {calls : WriteCalls} {file : Option Bytes}
    (written : (findCookieWriteTo fsname root seen nseen calls file).1 = 0)
    : (findCookieWriteTo fsname root seen nseen calls file).2
      = some (cookieText fsname (escaped root) seen nseen) := by
  unfold findCookieWriteTo at written ⊢
  rw [findCkEscape_searchRoot path] at written ⊢
  dsimp only at written ⊢
  split at written
  · rename_i failed
    dsimp only at written
    omega
  rename_i tmp
  rw [if_neg tmp]
  split at written
  · rename_i failed
    dsimp only at written
    omega
  rename_i opened
  rw [if_neg opened]
  split at written
  · rename_i failed
    exact absurd written (bne_iff_ne.mp failed)
  rename_i closed
  rw [if_neg closed]
  split at written
  · rename_i failed
    exact absurd written (bne_iff_ne.mp failed)
  rename_i renamed
  rw [if_neg renamed]

/-- The anchors of the search that wrote them. -/
theorem findCookieReadInto_same {fsname root : Bytes} (name : Fsname fsname)
    (path : SearchRoot root) (seen : Anchors) {nseen : Nat} (few : nseen ≤ 0x10000)
    : findCookieReadInto fsname root nseen
        (reopened (some (cookieText fsname (escaped root) seen nseen))) (fun _ => 0)
      = (0, fun mdt => if mdt < nseen then seen mdt else 0) := by
  have small (mdt : Nat) (below : mdt < nseen) (_ : seen mdt ≠ 0)
      : mdt < 0x10000 ∧ mdt < nseen := ⟨Nat.lt_of_lt_of_le below few, below⟩
  have lines := cookieLines_ok
    (foldlM_cookieText name path.text (Nat.le_of_lt path.short) seen small)
  unfold findCookieReadInto
  rw [findCkEscape_searchRoot path]
  dsimp only [reopened]
  rw [lines]
  rfl

/-- Another search stops at the header. -/
theorem findCookieReadInto_other {fsname root otherName otherRoot : Bytes}
    (name : Fsname fsname) (path : SearchRoot root) (otherPath : SearchRoot otherRoot)
    (differ : otherName ≠ fsname ∨ otherRoot ≠ root) (seen : Anchors) (nseen nstarts : Nat)
    (starts : Anchors)
    : findCookieReadInto otherName otherRoot nstarts
        (reopened (some (cookieText fsname (escaped root) seen nseen))) starts
      = (-einval, starts) := by
  obtain ⟨single, plain⟩ := escaped_line path.text
  have header := cookieLine_header name single plain otherName (escaped otherRoot) nstarts starts
  rw [if_neg] at header
  · unfold findCookieReadInto
    rw [findCkEscape_searchRoot otherPath]
    dsimp only [reopened]
    rw [fgetsLines_cookieText name path.text (Nat.le_of_lt path.short), cookieLines, header]
    rfl
  · rintro ⟨sameName, sameRoot⟩
    rcases differ with differ | differ
    · exact differ sameName.symm
    · exact differ (escaped_injective sameRoot).symm

/-- What was written is read back by the same search, anchor for anchor; a search of another
filesystem or under another root is refused, and its array is left as it was. If no call fails
there is such a file.
-/
theorem cookie_names_its_search {fsname root : Bytes} (name : Fsname fsname)
    (path : SearchRoot root) (seen : Anchors) (nseen : Nat) (few : nseen ≤ 0x10000)
    (file : Option Bytes)
    : (findCookieWriteTo fsname root seen nseen {} file).1 = 0
      ∧ ∀ calls : WriteCalls, (findCookieWriteTo fsname root seen nseen calls file).1 = 0 →
          findCookieReadInto fsname root nseen
              (reopened (findCookieWriteTo fsname root seen nseen calls file).2) (fun _ => 0)
            = (0, fun mdt => if mdt < nseen then seen mdt else 0)
          ∧ ∀ otherName otherRoot : Bytes, Fsname otherName → SearchRoot otherRoot →
              otherName ≠ fsname ∨ otherRoot ≠ root →
              ∀ (nstarts : Nat) (starts : Anchors),
                findCookieReadInto otherName otherRoot nstarts
                    (reopened (findCookieWriteTo fsname root seen nseen calls file).2) starts
                  = (-einval, starts) := by
  refine ⟨?_, fun calls written => ?_⟩
  · rw [findCookieWriteTo, findCkEscape_searchRoot path]
    rfl
  rw [findCookieWriteTo_written path written]
  refine ⟨findCookieReadInto_same name path seen few, ?_⟩
  intro otherName otherRoot _ otherPath differ nstarts starts
  exact findCookieReadInto_other name path otherPath differ seen nseen nstarts starts

/-- A root with a newline and a backslash in it, which escapes to that of no other search. -/
theorem cookie_names_its_search_newline
    : findCookieReadInto (cstr "lustre") (cstr "/mnt/a\n\\b") 2
          (reopened (findCookieWriteTo (cstr "lustre") (cstr "/mnt/a\n\\b")
            (fun mdt => if mdt = 1 then 7 else 0) 2 {} none).2) (fun _ => 0)
        = (0, fun mdt => if mdt < 2 then (if mdt = 1 then 7 else 0) else 0)
      ∧ findCookieReadInto (cstr "lustre") (cstr "/mnt/a\\n\\b") 2
          (reopened (findCookieWriteTo (cstr "lustre") (cstr "/mnt/a\n\\b")
            (fun mdt => if mdt = 1 then 7 else 0) 2 {} none).2) (fun _ => 0)
        = (-einval, fun _ => 0) := by
  have name : Fsname (cstr "lustre") :=
    ⟨by decide, by decide +kernel, by decide, by decide, by decide⟩
  have path : SearchRoot (cstr "/mnt/a\n\\b") := ⟨by decide, by decide⟩
  obtain ⟨written, all⟩ := cookie_names_its_search name path
    (fun mdt => if mdt = 1 then 7 else 0) 2 (by decide) none
  obtain ⟨same, other⟩ := all {} written
  refine ⟨same, other _ _ name ⟨by decide, by decide⟩ (.inr (by decide)) 2 _⟩

end LfuScan.Find

import LfuScan.Find.Dirmap
import LfuScan.Foundations.Memory

/-! Pathnames composed from the directory map. The parents of an object are looked up one
after the other and their names written from the end of the buffer backwards, until the root
is reached. What comes out is the path the directories' links give, whatever the links are.
-/

namespace LfuScan.Find

open LfuScan.Foundations LfuScan.Lustre

/-- A cycle, not a path. -/
def scanDirmapMaxDepth : Nat := 4096

def luRootFid : LuFid := { fSeq := 0x200000007, fOid := 1 }

/-- `buf[--at] = c`. -/
def pushByte (c : UInt8) (at_ : Nat) (buf : Bytes) : Option (Nat × Bytes) :=
  match at_ with
  | 0 => none
  | at_ + 1 => (storeList buf at_ [c]).map fun buf => (at_, buf)

/-- A name and the separator before it, in front of what is there. -/
def pushName (name : Bytes) (at_ : Nat) (buf : Bytes) : Option (Nat × Bytes) :=
  if at_ < name.length then
    none
  else
    (storeList buf (at_ - name.length) name).bind (pushByte (ch '/') (at_ - name.length))

/-- The path is moved to the start of the buffer. -/
def movePath (at_ : Nat) (buf : Bytes) : Option (Int × Bytes) :=
  ((loadRange buf at_ (buf.length - at_)).bind (storeList buf 0)).map fun buf => (0, buf)

/-- The loop of `scan_dirmap_path`: `left` is how many directories may still be looked up. -/
def scanDirmapClimb (m : ScanDirmap) : Nat → LuFid → Nat → Bytes → Option (Int × Bytes)
  | 0, cur, at_, buf => if scanFidEq cur luRootFid then movePath at_ buf else some (-eloop, buf)
  | left + 1, cur, at_, buf =>
      if scanFidEq cur luRootFid then
        movePath at_ buf
      else
        match scanDirmapGet m cur with
        | none => none
        | some none => some (-enoent, buf)
        | some (some e) =>
            -- a striped directory's shard is a step, not a component
            if e.sdName.length = 0 then
              scanDirmapClimb m left e.sdParent at_ buf
            else if e.sdName.length + 1 > at_ then
              some (-erange, buf)
            else
              (pushName e.sdName at_ buf).bind fun (at_, buf) =>
                scanDirmapClimb m left e.sdParent at_ buf

/-- The path of an object: the return code and the buffer. `none` is an access outside the
buffer, or a loop that does not end.
-/
def scanDirmapPath (m : ScanDirmap) (parent : LuFid) (name buf : Bytes) : Option (Int × Bytes) :=
  if buf.length < 2 then
    some (-einval, buf)
  else
    (pushByte 0 buf.length buf).bind fun (at_, buf) =>
      if name.length + 1 > at_ then
        some (-erange, buf)
      else
        (pushName name at_ buf).bind fun (at_, buf) =>
          scanDirmapClimb m scanDirmapMaxDepth parent at_ buf

def rootKey : UInt64 × UInt32 := fidKey luRootFid

/-- The links of the directories lead from one to another, over the directories listed on the
way. The root is never left.
-/
inductive Climbs (dirs : List ScanDirent)
    : UInt64 × UInt32 → List ScanDirent → UInt64 × UInt32 → Prop
  | here {cur : UInt64 × UInt32} : Climbs dirs cur [] cur
  | up {e : ScanDirent} {es : List ScanDirent} {top : UInt64 × UInt32} (member : e ∈ dirs)
    (below : fidKey e.sdFid ≠ rootKey) (rest : Climbs dirs (fidKey e.sdParent) es top)
    : Climbs dirs (fidKey e.sdFid) (e :: es) top

/-- No directory has this key. -/
def Unmapped (dirs : List ScanDirent) (k : UInt64 × UInt32) : Prop :=
  ∀ e ∈ dirs, fidKey e.sdFid ≠ k

/-- Where the links end: at the root, or at a directory that is not in the map. -/
def Ends (dirs : List ScanDirent) (top : UInt64 × UInt32) : Prop :=
  top = rootKey ∨ Unmapped dirs top

/-- The names of some directories, the last first, and of an object below them. A shard has no
name.
-/
def pathOf (es : List ScanDirent) (name : Bytes) : Bytes :=
  ch '/' :: List.intercalate [ch '/']
    (((es.reverse.map ScanDirent.sdName).filter fun name => !name.isEmpty) ++ [name])

/-- From one directory the links go one way: the longer of two walks continues the other, and
so does one that has come to an end.
-/
theorem Climbs.split {dirs : List ScanDirent} (mappable : Mappable dirs)
    {cur mid top : UInt64 × UInt32} {es part : List ScanDirent} (first : Climbs dirs cur part mid)
    (whole : Climbs dirs cur es top) (further : Ends dirs top ∨ part.length ≤ es.length)
    : ∃ rest, es = part ++ rest ∧ Climbs dirs mid rest top := by
  induction first generalizing es with
  | here => exact ⟨es, rfl, whole⟩
  | @up e part mid member below links ih =>
      generalize start : fidKey e.sdFid = cur at whole
      cases whole with
      | here =>
          rcases further with (root | unmapped) | longer
          · exact absurd (start.trans root) below
          · exact absurd start (unmapped e member)
          · cases longer
      | up other _ others =>
          obtain rfl := mappable.eq_of_key member other start
          obtain ⟨rest, rfl, continued⟩ :=
            ih others (further.imp_right Nat.le_of_succ_le_succ)
          exact ⟨rest, rfl, continued⟩

/-- Links that end do so in one way. -/
theorem Climbs.unique {dirs : List ScanDirent} (mappable : Mappable dirs)
    {cur left right : UInt64 × UInt32} {es others : List ScanDirent}
    (first : Climbs dirs cur es left) (second : Climbs dirs cur others right)
    (endsLeft : Ends dirs left) (endsRight : Ends dirs right)
    : es = others ∧ left = right := by
  obtain ⟨rest, rfl, continued⟩ := first.split mappable second (.inl endsRight)
  cases continued with
  | here => exact ⟨(List.append_nil es).symm, rfl⟩
  | up member below =>
      rcases endsLeft with root | unmapped
      · exact absurd root below
      · exact absurd rfl (unmapped _ member)

/-- Links that come back to where they were never end. -/
theorem Climbs.no_end_of_cycle {dirs : List ScanDirent} (mappable : Mappable dirs)
    {cur mid top : UInt64 × UInt32} {part loop es : List ScanDirent}
    (reaches : Climbs dirs cur part mid) (cycle : Climbs dirs mid loop mid) (turns : loop ≠ [])
    (whole : Climbs dirs cur es top)
    : ¬Ends dirs top := by
  intro ends
  obtain ⟨rest, _, fromMid⟩ := reaches.split mappable whole (.inl ends)
  obtain ⟨again, split, fromAgain⟩ := cycle.split mappable fromMid (.inl ends)
  obtain ⟨same, _⟩ := fromMid.unique mappable fromAgain ends ends
  rw [← same] at split
  exact turns (List.self_eq_append_left.mp split)

/-- What a directory adds to the path. -/
def component (name : Bytes) : Bytes := if name.length = 0 then [] else ch '/' :: name

/-- What some directories add to the path, the last first. -/
def components (es : List ScanDirent) : Bytes :=
  es.reverse.flatMap fun e => component e.sdName

theorem components_cons (e : ScanDirent) (es : List ScanDirent)
    : components (e :: es) = components es ++ component e.sdName := by
  rw [components, List.reverse_cons, List.flatMap_append, List.flatMap_singleton]
  rfl

theorem components_append (part rest : List ScanDirent)
    : components (part ++ rest) = components rest ++ components part := by
  rw [components, List.reverse_append, List.flatMap_append]
  rfl

theorem slash_intercalate (names : List Bytes) (name : Bytes)
    : ch '/' :: List.intercalate [ch '/'] (names ++ [name])
      = names.flatMap (ch '/' :: ·) ++ ch '/' :: name := by
  induction names with
  | nil => simp [List.intercalate]
  | cons first rest ih =>
      have more : rest ++ [name] ≠ [] := by simp
      rw [List.cons_append, List.intercalate_cons_of_ne_nil more, List.flatMap_cons,
        List.append_assoc, List.append_assoc, ← ih]
      rfl

theorem pathOf_eq (es : List ScanDirent) (name : Bytes)
    : pathOf es name = components es ++ ch '/' :: name := by
  rw [pathOf, slash_intercalate, components]
  congr 1
  induction es.reverse with
  | nil => rfl
  | cons e rest ih =>
      rw [List.map_cons, List.flatMap_cons, ← ih, component]
      cases e.sdName with
      | nil => rfl
      | cons => rfl

/-- The buffer ends with this text, and what is before it is free. -/
def Written (at_ : Nat) (buf text : Bytes) : Prop :=
  ∃ front, buf = front ++ text ∧ front.length = at_

theorem storeList_written {at_ : Nat} {buf text : Bytes} (written : Written at_ buf text)
    (source : Bytes) (fits : source.length ≤ at_)
    : ∃ after, storeList buf (at_ - source.length) source = some after
        ∧ Written (at_ - source.length) after (source ++ text)
        ∧ after.length = buf.length := by
  obtain ⟨front, rfl, rfl⟩ := written
  refine ⟨_, storeList_before fits, ⟨_, List.append_assoc .., ?_⟩, ?_⟩
  · exact List.length_take_of_le (Nat.sub_le ..)
  · simp only [List.length_append, List.length_take]
    omega

theorem pushByte_written {at_ : Nat} {buf text : Bytes} (written : Written (at_ + 1) buf text)
    (c : UInt8)
    : ∃ after, pushByte c (at_ + 1) buf = some (at_, after) ∧ Written at_ after (c :: text)
        ∧ after.length = buf.length := by
  obtain ⟨after, stored, kept⟩ :=
    storeList_written written [c] (Nat.succ_le_succ (Nat.zero_le at_))
  refine ⟨after, ?_, kept⟩
  rw [pushByte, show at_ = at_ + 1 - [c].length from rfl, stored]
  rfl

/-- A name that fits with its separator. -/
theorem pushName_written {at_ : Nat} {buf text : Bytes} (written : Written at_ buf text)
    {name : Bytes} (fits : name.length + 1 ≤ at_)
    : ∃ after, pushName name at_ buf = some (at_ - (name.length + 1), after)
        ∧ Written (at_ - (name.length + 1)) after (ch '/' :: name ++ text)
        ∧ after.length = buf.length := by
  obtain ⟨copied, stored, kept, same⟩ := storeList_written written name (by omega)
  have next : at_ - name.length = at_ - (name.length + 1) + 1 := by omega
  rw [next] at stored kept
  obtain ⟨after, pushed, ends, length⟩ := pushByte_written kept (ch '/')
  refine ⟨after, ?_, ends, length.trans same⟩
  rw [pushName, if_neg (by omega), next, stored, Option.bind_some, pushed]

theorem movePath_written {at_ : Nat} {buf text : Bytes} (written : Written at_ buf text)
    : ∃ out, movePath at_ buf = some (0, out) ∧ text <+: out ∧ out.length = buf.length := by
  obtain ⟨front, rfl, rfl⟩ := written
  have length : (front ++ text).length - front.length = text.length := by
    rw [List.length_append]
    omega
  have loaded : loadRange (front ++ text) front.length ((front ++ text).length - front.length)
      = some text := by
    rw [length, loadRange_inside (by rw [List.length_append]), List.drop_left, List.take_length]
  refine ⟨text ++ (front ++ text).drop text.length, ?_, List.prefix_append .., ?_⟩
  · rw [movePath, loaded, Option.bind_some, storeList, Nat.zero_add,
      if_pos (by rw [List.length_append]; omega)]
    rfl
  · simp only [List.length_append, List.length_drop]
    omega

-----------------------------------------------------------------------------------------
-- The walk
-----------------------------------------------------------------------------------------

/-- How a walk ends that may look up `left` directories and has `room` bytes before `text`. -/
inductive WalkEnd (dirs : List ScanDirent) (cur : UInt64 × UInt32) (left room : Nat)
    (text : Bytes)
    : Int → Bytes → Prop
  | path {es : List ScanDirent} {out : Bytes} (links : Climbs dirs cur es rootKey)
    (steps : es.length ≤ left) (fits : (components es).length ≤ room)
    (written : components es ++ text <+: out)
    : WalkEnd dirs cur left room text 0 out
  | unmapped {es : List ScanDirent} {top : UInt64 × UInt32} {out : Bytes}
    (links : Climbs dirs cur es top) (outside : top ≠ rootKey) (unmapped : Unmapped dirs top)
    (steps : es.length < left)
    : WalkEnd dirs cur left room text (-enoent) out
  | tooLong {es : List ScanDirent} {top : UInt64 × UInt32} {out : Bytes}
    (links : Climbs dirs cur es top) (steps : es.length ≤ left)
    (over_ : room < (components es).length)
    : WalkEnd dirs cur left room text (-erange) out
  | tooDeep {es : List ScanDirent} {top : UInt64 × UInt32} {out : Bytes}
    (links : Climbs dirs cur es top) (outside : top ≠ rootKey) (steps : es.length = left)
    : WalkEnd dirs cur left room text (-eloop) out

/-- One directory further down. -/
theorem WalkEnd.up {dirs : List ScanDirent} {e : ScanDirent} {left room : Nat} {text out : Bytes}
    {rc : Int} (member : e ∈ dirs) (below : fidKey e.sdFid ≠ rootKey)
    (fits : (component e.sdName).length ≤ room)
    (rest : WalkEnd dirs (fidKey e.sdParent) left (room - (component e.sdName).length)
      (component e.sdName ++ text) rc out)
    : WalkEnd dirs (fidKey e.sdFid) (left + 1) room text rc out := by
  cases rest with
  | path links steps less written =>
      refine .path (.up member below links) (Nat.succ_le_succ steps) ?_ ?_
      · rw [components_cons, List.length_append]
        omega
      · rw [components_cons, List.append_assoc]
        exact written
  | unmapped links outside unmapped steps =>
      exact .unmapped (.up member below links) outside unmapped (Nat.succ_lt_succ steps)
  | tooLong links steps over_ =>
      refine .tooLong (.up member below links) (Nat.succ_le_succ steps) ?_
      rw [components_cons, List.length_append]
      omega
  | tooDeep links outside steps =>
      exact .tooDeep (.up member below links) outside (congrArg (· + 1) steps)

/-- At the root the path is complete. -/
theorem scanDirmapClimb_root {cur : LuFid} (root : fidKey cur = rootKey) (m : ScanDirmap)
    (left at_ : Nat) (buf : Bytes)
    : scanDirmapClimb m left cur at_ buf = movePath at_ buf := by
  have same : scanFidEq cur luRootFid = true := scanFidEq_iff.mpr root
  cases left with
  | zero => rw [scanDirmapClimb, if_pos same]
  | succ left => rw [scanDirmapClimb, if_pos same]

theorem scanFidEq_outside {cur : LuFid} (outside : fidKey cur ≠ rootKey)
    : ¬scanFidEq cur luRootFid = true := fun same => outside (scanFidEq_iff.mp same)

/-- Anywhere else one more directory is looked up. -/
theorem scanDirmapClimb_found {m : ScanDirmap} {dirs : List ScanDirent} (mapped : Mapped m dirs)
    {e : ScanDirent} (member : e ∈ dirs) {cur : LuFid} (own : fidKey e.sdFid = fidKey cur)
    (outside : fidKey cur ≠ rootKey) (left at_ : Nat) (buf : Bytes)
    : scanDirmapClimb m (left + 1) cur at_ buf
      = if e.sdName.length = 0 then
          scanDirmapClimb m left e.sdParent at_ buf
        else if e.sdName.length + 1 > at_ then
          some (-erange, buf)
        else
          (pushName e.sdName at_ buf).bind fun (at_, buf) =>
            scanDirmapClimb m left e.sdParent at_ buf := by
  rw [scanDirmapClimb, if_neg (scanFidEq_outside outside), mapped.get_mem member own]

theorem scanDirmapClimb_end {m : ScanDirmap} {dirs : List ScanDirent} (mapped : Mapped m dirs)
    (left : Nat) (cur : LuFid) {at_ : Nat} {buf text : Bytes} (written : Written at_ buf text)
    : ∃ rc out, scanDirmapClimb m left cur at_ buf = some (rc, out) ∧ out.length = buf.length
        ∧ WalkEnd dirs (fidKey cur) left at_ text rc out := by
  induction left generalizing cur at_ buf text with
  | zero =>
      by_cases root : fidKey cur = rootKey
      · obtain ⟨out, moved, starts, same⟩ := movePath_written written
        rw [scanDirmapClimb_root root, root]
        exact ⟨0, out, moved, same, .path .here (Nat.le_refl 0) (Nat.zero_le _) starts⟩
      · rw [scanDirmapClimb, if_neg (scanFidEq_outside root)]
        exact ⟨-eloop, buf, rfl, rfl, .tooDeep .here root rfl⟩
  | succ left ih =>
      by_cases root : fidKey cur = rootKey
      · obtain ⟨out, moved, starts, same⟩ := movePath_written written
        rw [scanDirmapClimb_root root, root]
        exact ⟨0, out, moved, same, .path .here (Nat.zero_le _) (Nat.zero_le _) starts⟩
      by_cases known : ∃ e ∈ dirs, fidKey e.sdFid = fidKey cur
      · obtain ⟨e, member, own⟩ := known
        rw [scanDirmapClimb_found mapped member own root]
        rw [← own] at root ⊢
        by_cases shard : e.sdName.length = 0
        · have nothing : component e.sdName = [] := if_pos shard
          obtain ⟨rc, out, climbed, same, ends⟩ := ih e.sdParent written
          rw [if_pos shard]
          refine ⟨rc, out, climbed, same, .up member root ?_ ?_⟩
          · rw [nothing]
            exact Nat.zero_le _
          · rw [nothing]
            exact ends
        · have some_ : component e.sdName = ch '/' :: e.sdName := if_neg shard
          rw [if_neg shard]
          by_cases over_ : e.sdName.length + 1 > at_
          · rw [if_pos over_]
            refine ⟨-erange, buf, rfl, rfl,
              .tooLong (.up member root .here) (Nat.succ_le_succ (Nat.zero_le left)) ?_⟩
            rw [components_cons, some_]
            exact over_
          · obtain ⟨next, pushed, kept, length⟩ := pushName_written written (Nat.not_lt.mp over_)
            obtain ⟨rc, out, climbed, same, ends⟩ := ih e.sdParent kept
            rw [if_neg over_, pushed, Option.bind_some]
            refine ⟨rc, out, climbed, same.trans length, .up member root ?_ ?_⟩
            · rw [some_]
              exact Nat.not_lt.mp over_
            · rw [some_]
              exact ends
      · have absent : Unmapped dirs (fidKey cur) := fun e member own => known ⟨e, member, own⟩
        rw [scanDirmapClimb, if_neg (scanFidEq_outside root), mapped.get_absent absent]
        exact ⟨-enoent, buf, rfl, rfl, .unmapped .here root absent (Nat.succ_pos left)⟩

section WalkEnd

variable {dirs : List ScanDirent} {cur top : UInt64 × UInt32} {left room : Nat} {text out : Bytes}
  {rc : Int} {es : List ScanDirent}

theorem WalkEnd.links_of_zero (ends : WalkEnd dirs cur left room text rc out) (zero : rc = 0)
    : ∃ es, Climbs dirs cur es rootKey ∧ es.length ≤ left ∧ (components es).length ≤ room
        ∧ components es ++ text <+: out := by
  cases ends with
  | path links steps fits written => exact ⟨_, links, steps, fits, written⟩
  | unmapped | tooLong | tooDeep => cases zero

/-- A walk is not stopped by the length of a part of it if the whole fits. -/
theorem components_le_of_split {part rest : List ScanDirent}
    (fits : (components (part ++ rest)).length ≤ room)
    : (components part).length ≤ room := by
  rw [components_append, List.length_append] at fits
  omega

/-- Links that lead to the root in few enough steps, with names that fit, give the path. -/
theorem WalkEnd.of_root (mappable : Mappable dirs) (ends : WalkEnd dirs cur left room text rc out)
    (links : Climbs dirs cur es rootKey) (steps : es.length ≤ left)
    (fits : (components es).length ≤ room)
    : rc = 0 := by
  cases ends with
  | path => rfl
  | unmapped others outside unmapped =>
      exact absurd (others.unique mappable links (.inr unmapped) (.inl rfl)).2 outside
  | tooLong part _ over_ =>
      obtain ⟨rest, rfl, _⟩ := part.split mappable links (.inl (.inl rfl))
      exact absurd over_ (Nat.not_lt.mpr (components_le_of_split fits))
  | tooDeep part outside deep =>
      obtain ⟨rest, rfl, continued⟩ := part.split mappable links (.inl (.inl rfl))
      rw [List.length_append, deep] at steps
      obtain rfl : rest = [] := List.eq_nil_of_length_eq_zero (by omega)
      cases continued
      exact absurd rfl outside

/-- Links that lead to a directory that is not in the map. -/
theorem WalkEnd.of_unmapped (mappable : Mappable dirs)
    (ends : WalkEnd dirs cur left room text rc out) (links : Climbs dirs cur es top)
    (outside : top ≠ rootKey) (unmapped : Unmapped dirs top) (steps : es.length < left)
    (fits : (components es).length ≤ room)
    : rc = -enoent := by
  cases ends with
  | path others =>
      exact absurd (links.unique mappable others (.inr unmapped) (.inl rfl)).2 outside
  | unmapped => rfl
  | tooLong part _ over_ =>
      obtain ⟨rest, rfl, _⟩ := part.split mappable links (.inl (.inr unmapped))
      exact absurd over_ (Nat.not_lt.mpr (components_le_of_split fits))
  | tooDeep part _ deep =>
      obtain ⟨rest, rfl, _⟩ := part.split mappable links (.inl (.inr unmapped))
      rw [List.length_append, deep] at steps
      omega

/-- Links that have not come to the root when every look-up is spent. -/
theorem WalkEnd.of_deep (mappable : Mappable dirs) (ends : WalkEnd dirs cur left room text rc out)
    (links : Climbs dirs cur es top) (outside : top ≠ rootKey) (steps : es.length = left)
    (fits : (components es).length ≤ room)
    : rc = -eloop := by
  cases ends with
  | path others few =>
      obtain ⟨rest, rfl, continued⟩ := links.split mappable others (.inl (.inl rfl))
      rw [List.length_append, steps] at few
      obtain rfl : rest = [] := List.eq_nil_of_length_eq_zero (by omega)
      cases continued
      exact absurd rfl outside
  | unmapped others _ unmapped few =>
      obtain ⟨rest, rfl, _⟩ := links.split mappable others (.inl (.inr unmapped))
      rw [List.length_append, steps] at few
      omega
  | tooLong part few over_ =>
      obtain ⟨rest, rfl, _⟩ := part.split mappable links (.inr (by omega))
      exact absurd over_ (Nat.not_lt.mpr (components_le_of_split fits))
  | tooDeep => rfl

end WalkEnd

-----------------------------------------------------------------------------------------
-- The path
-----------------------------------------------------------------------------------------

/-- The name first, which has to fit; then the walk with the room that is left. -/
theorem scanDirmapPath_end {m : ScanDirmap} {dirs : List ScanDirent} (mapped : Mapped m dirs)
    (parent : LuFid) (name : Bytes) {buf : Bytes} (room : 2 ≤ buf.length)
    : ∃ rc out, scanDirmapPath m parent name buf = some (rc, out) ∧ out.length = buf.length
        ∧ (buf.length < name.length + 2 ∧ rc = -erange
          ∨ name.length + 2 ≤ buf.length
            ∧ WalkEnd dirs (fidKey parent) scanDirmapMaxDepth (buf.length - (name.length + 2))
                (ch '/' :: name ++ [0]) rc out) := by
  obtain ⟨last, length⟩ : ∃ last, buf.length = last + 1 := ⟨buf.length - 1, by omega⟩
  have whole : Written (last + 1) buf [] := ⟨buf, (List.append_nil buf).symm, length⟩
  obtain ⟨ended, pushed, kept, same⟩ := pushByte_written whole 0
  rw [scanDirmapPath, if_neg (by omega), length, pushed, Option.bind_some]
  dsimp only
  by_cases over_ : name.length + 1 > last
  · rw [if_pos over_]
    exact ⟨-erange, ended, rfl, same.trans length, .inl ⟨by omega, rfl⟩⟩
  · obtain ⟨named, written, starts, equal⟩ := pushName_written kept (Nat.not_lt.mp over_)
    obtain ⟨rc, out, climbed, size, ends⟩ :=
      scanDirmapClimb_end mapped scanDirmapMaxDepth parent starts
    rw [if_neg over_, written, Option.bind_some]
    refine ⟨rc, out, climbed, (size.trans equal).trans (same.trans length), .inr ⟨by omega, ?_⟩⟩
    have left : last + 1 - (name.length + 2) = last - (name.length + 1) := by omega
    rw [left]
    exact ends

/-- A path fits if its name does and its directories fit before it. -/
theorem pathOf_fits_iff (es : List ScanDirent) (name : Bytes) (buflen : Nat)
    : (pathOf es name).length < buflen
      ↔ name.length + 2 ≤ buflen ∧ (components es).length ≤ buflen - (name.length + 2) := by
  rw [pathOf_eq, List.length_append, List.length_cons]
  omega

/-- With a map of any directories, filled in any order, the path of any object: the walk ends,
and stays inside the buffer. It succeeds just when the links lead to the root in as many steps
as are allowed and the path fits, and then the path is in the buffer. Links that end before at
a directory that is not in the map are reported as such, and links that go on too long as a
loop; links that form a cycle never give a path.
-/
theorem dirmap_path_exact {calloc : Nat → Bool} (never : ∀ cap, calloc cap = true)
    (recs : List ScanDirRec) (mappable : Mappable (recs.filterMap mappedDir?)) (parent : LuFid)
    (name : Bytes) {buf : Bytes} (room : 2 ≤ buf.length)
    : let dirs := recs.filterMap mappedDir?
      ∃ m, scanDirmapPass calloc recs (scanDirmapPrepass calloc).2 = some (0, m)
        ∧ ∃ rc out, scanDirmapPath m parent name buf = some (rc, out)
          ∧ out.length = buf.length
          ∧ (rc = 0
            ↔ ∃ es, Climbs dirs (fidKey parent) es rootKey ∧ es.length ≤ scanDirmapMaxDepth
                ∧ (pathOf es name).length < buf.length)
          ∧ (∀ es, Climbs dirs (fidKey parent) es rootKey → rc = 0 →
              pathOf es name ++ [0] <+: out)
          ∧ (∀ es top, Climbs dirs (fidKey parent) es top → top ≠ rootKey → Unmapped dirs top →
              es.length < scanDirmapMaxDepth → (pathOf es name).length < buf.length →
              rc = -enoent)
          ∧ (∀ es top, Climbs dirs (fidKey parent) es top → top ≠ rootKey →
              es.length = scanDirmapMaxDepth → (pathOf es name).length < buf.length →
              rc = -eloop)
          ∧ (∀ es mid loop, Climbs dirs (fidKey parent) es mid → Climbs dirs mid loop mid →
              loop ≠ [] → rc ≠ 0) := by
  intro dirs
  obtain ⟨m, passed, mapped⟩ := scanDirmap_mapped never recs mappable
  obtain ⟨rc, out, walked, size, ends⟩ := scanDirmapPath_end mapped parent name room
  -- a walk that starts has room for the name
  have walk (es : List ScanDirent) (fits : (pathOf es name).length < buf.length)
      : (components es).length ≤ buf.length - (name.length + 2)
        ∧ WalkEnd dirs (fidKey parent) scanDirmapMaxDepth (buf.length - (name.length + 2))
            (ch '/' :: name ++ [0]) rc out := by
    obtain ⟨named, before⟩ := (pathOf_fits_iff es name buf.length).mp fits
    rcases ends with ⟨short, _⟩ | ⟨_, ends⟩
    · omega
    · exact ⟨before, ends⟩
  have links (zero : rc = 0)
      : ∃ es, Climbs dirs (fidKey parent) es rootKey ∧ es.length ≤ scanDirmapMaxDepth
          ∧ (pathOf es name).length < buf.length ∧ pathOf es name ++ [0] <+: out := by
    rcases ends with ⟨_, long⟩ | ⟨named, ends⟩
    · rw [long] at zero
      cases zero
    · obtain ⟨es, links, steps, fits, written⟩ := ends.links_of_zero zero
      refine ⟨es, links, steps, (pathOf_fits_iff es name buf.length).mpr ⟨named, fits⟩, ?_⟩
      rw [pathOf_eq, List.append_assoc]
      exact written
  refine ⟨m, passed, rc, out, walked, size, ⟨fun zero => ?_, ?_⟩, ?_, ?_, ?_, ?_⟩
  · obtain ⟨es, reaches, steps, fits, _⟩ := links zero
    exact ⟨es, reaches, steps, fits⟩
  · rintro ⟨es, reaches, steps, fits⟩
    obtain ⟨before, ends⟩ := walk es fits
    exact ends.of_root mappable reaches steps before
  · intro es reaches zero
    obtain ⟨others, same, _, _, written⟩ := links zero
    rw [(reaches.unique mappable same (.inl rfl) (.inl rfl)).1]
    exact written
  · intro es top reaches outside unmapped steps fits
    obtain ⟨before, ends⟩ := walk es fits
    exact ends.of_unmapped mappable reaches outside unmapped steps before
  · intro es top reaches outside steps fits
    obtain ⟨before, ends⟩ := walk es fits
    exact ends.of_deep mappable reaches outside steps before
  · intro es mid loop reaches cycle turns zero
    obtain ⟨others, whole, _⟩ := links zero
    exact reaches.no_end_of_cycle mappable cycle turns whole (.inl rfl)

/-- The record of a directory. -/
def directoryRec (lfsrFid lfsrParentFid : LuFid) (scanLmvShard : Bool) (name : Bytes)
    : ScanDirRec where
  statxMode := true
  stxMode := 0o040755
  scanFid := true
  scanParent := true
  scanLmvShard
  lfsrFid
  lfsrParentFid
  lfsrName := some name

def nestedFid (fOid : UInt32) : LuFid := { fSeq := 0x200000401, fOid }

/-- A directory `b` in a shard of a striped directory `a`, which is in the root. -/
def nestedRecs : List ScanDirRec :=
  [
    directoryRec (nestedFid 3) (nestedFid 2) false (cstr "b"),
    directoryRec (nestedFid 1) luRootFid false (cstr "a"),
    directoryRec (nestedFid 2) (nestedFid 1) true (cstr "a:0")
  ]

def nestedDirs : List ScanDirent :=
  [
    { sdFid := nestedFid 3, sdParent := nestedFid 2, sdName := cstr "b" },
    { sdFid := nestedFid 2, sdParent := nestedFid 1, sdName := [] },
    { sdFid := nestedFid 1, sdParent := luRootFid, sdName := cstr "a" }
  ]

/-- The shard does not show in the path. -/
theorem dirmap_path_exact_nested
    : ∃ m out,
        scanDirmapPass (fun _ => true) nestedRecs (scanDirmapPrepass fun _ => true).2
          = some (0, m)
        ∧ scanDirmapPath m (nestedFid 3) (cstr "f") (List.replicate 8 0) = some (0, out)
        ∧ cstr "/a/b/f" ++ [0] <+: out := by
  have dirs : nestedDirs ⊆ nestedRecs.filterMap mappedDir? := by decide
  have links : Climbs (nestedRecs.filterMap mappedDir?) (fidKey (nestedFid 3)) nestedDirs rootKey :=
    .up (dirs List.mem_cons_self) (by decide)
      (.up (dirs (List.mem_cons_of_mem _ List.mem_cons_self)) (by decide)
        (.up (dirs (List.mem_cons_of_mem _ (List.mem_cons_of_mem _ List.mem_cons_self)))
          (by decide) .here))
  obtain ⟨m, passed, rc, out, walked, _, zero, written, _⟩ := dirmap_path_exact
    (fun _ => rfl : ∀ cap, (fun _ => true : Nat → Bool) cap = true) nestedRecs
    ⟨by decide, by decide, by decide⟩ (nestedFid 3) (cstr "f")
    (show 2 ≤ (List.replicate 8 (0 : UInt8)).length by decide)
  obtain rfl := zero.mpr ⟨_, links, by decide, by decide⟩
  exact ⟨m, out, passed, walked, written _ links rfl⟩

-----------------------------------------------------------------------------------------
-- More directories than may be looked up
-----------------------------------------------------------------------------------------

def chainFid (i : Nat) : LuFid := { fSeq := 0x200000401, fOid := UInt32.ofNat (i + 1) }

/-- A shard whose parent is the next one. -/
def chainRec (i : Nat) : ScanDirRec := directoryRec (chainFid i) (chainFid (i + 1)) true []

def chainDir (i : Nat) : ScanDirent := { sdFid := chainFid i, sdParent := chainFid (i + 1) }

/-- As many shards as may be looked up, each in the next, the last in one that is not there. -/
def chainRecs : List ScanDirRec := (List.range scanDirmapMaxDepth).map chainRec

theorem chainRecs_dirs
    : chainRecs.filterMap mappedDir? = (List.range scanDirmapMaxDepth).map chainDir := by
  have directory : sIsdir 0o040755 = true := by decide
  have each : mappedDir? ∘ chainRec = some ∘ chainDir := by
    funext i
    simp [mappedDir?, chainRec, directoryRec, chainDir, directory]
  rw [chainRecs, List.filterMap_map, each, List.filterMap_eq_map]

theorem chainFid_ne {i j : Nat} (left : i ≤ scanDirmapMaxDepth) (right : j ≤ scanDirmapMaxDepth)
    (same : fidKey (chainFid i) = fidKey (chainFid j))
    : i = j := by
  have small (n : Nat) (bound : n ≤ scanDirmapMaxDepth)
      : (UInt32.ofNat (n + 1)).toNat = n + 1 := by
    have fits : n + 1 < 2 ^ 32 := Nat.lt_of_le_of_lt (Nat.succ_le_succ bound) (by decide)
    exact UInt32.toNat_ofNat_of_lt' fits
  have oids : UInt32.ofNat (i + 1) = UInt32.ofNat (j + 1) := (Prod.mk.inj same).2
  have numbers := congrArg UInt32.toNat oids
  rw [small i left, small j right] at numbers
  omega

theorem chain_outside (i : Nat) : fidKey (chainFid i) ≠ rootKey := fun same =>
  absurd (Prod.mk.inj same).1 (show (0x200000401 : UInt64) ≠ 0x200000007 by decide)

theorem chain_mappable : Mappable (chainRecs.filterMap mappedDir?) := by
  rw [chainRecs_dirs]
  refine ⟨?_, fun e member => ?_, fun e member => ?_⟩
  · rw [List.map_map]
    refine List.Nodup.map_on (fun i left j right same => ?_) List.nodup_range
    exact chainFid_ne (Nat.le_of_lt (List.mem_range.mp left))
      (Nat.le_of_lt (List.mem_range.mp right)) same
  · obtain ⟨i, _, rfl⟩ := List.mem_map.mp member
    exact fun zero => absurd (Prod.mk.inj zero).1 (show (0x200000401 : UInt64) ≠ 0 by decide)
  · obtain ⟨i, _, rfl⟩ := List.mem_map.mp member
    exact Nat.zero_le _

theorem chain_links (count : Nat) {i : Nat} (bound : i + count ≤ scanDirmapMaxDepth)
    : Climbs ((List.range scanDirmapMaxDepth).map chainDir) (fidKey (chainFid i))
        ((List.range' i count).map chainDir) (fidKey (chainFid (i + count))) := by
  induction count generalizing i with
  | zero => exact .here
  | succ count ih =>
      have next := ih (i := i + 1) (by omega)
      rw [List.range'_succ, List.map_cons, Nat.add_comm count 1, ← Nat.add_assoc]
      refine .up (e := chainDir i) ?_ (chain_outside i) next
      exact List.mem_map_of_mem (List.mem_range.mpr (by omega))

theorem components_chain (indices : List Nat) : components (indices.map chainDir) = [] := by
  induction indices with
  | nil => rfl
  | cons i rest ih =>
      rw [List.map_cons, components_cons, ih]
      rfl

/-- The links end at a directory that is not in the map, and everything fits, but the walk is
given up one look-up before and reported as a loop.
-/
theorem long_chain_is_a_loop
    : ∃ m out,
        scanDirmapPass (fun _ => true) chainRecs (scanDirmapPrepass fun _ => true).2 = some (0, m)
        ∧ scanDirmapPath m (chainFid 0) (cstr "f") (List.replicate 4 0) = some (-eloop, out)
        ∧ ∃ es top,
            Climbs (chainRecs.filterMap mappedDir?) (fidKey (chainFid 0)) es top
            ∧ top ≠ rootKey
            ∧ Unmapped (chainRecs.filterMap mappedDir?) top
            ∧ (pathOf es (cstr "f")).length < (List.replicate 4 (0 : UInt8)).length := by
  have links := chain_links scanDirmapMaxDepth (i := 0) (by omega)
  rw [Nat.zero_add, ← chainRecs_dirs] at links
  have deep : ((List.range' 0 scanDirmapMaxDepth).map chainDir).length = scanDirmapMaxDepth := by
    rw [List.length_map, List.length_range']
  have unmapped : Unmapped (chainRecs.filterMap mappedDir?)
      (fidKey (chainFid scanDirmapMaxDepth)) := by
    rw [chainRecs_dirs]
    intro e member same
    obtain ⟨i, inside, rfl⟩ := List.mem_map.mp member
    have below := List.mem_range.mp inside
    have equal := chainFid_ne (Nat.le_of_lt below) (Nat.le_refl _) same
    omega
  have fits : (pathOf ((List.range' 0 scanDirmapMaxDepth).map chainDir) (cstr "f")).length
      < (List.replicate 4 (0 : UInt8)).length := by
    rw [pathOf_eq, components_chain]
    decide
  obtain ⟨m, passed, mapped⟩ := scanDirmap_mapped
    (fun _ => rfl : ∀ cap, (fun _ => true : Nat → Bool) cap = true) chainRecs chain_mappable
  obtain ⟨rc, out, walked, _, ends⟩ := scanDirmapPath_end mapped (chainFid 0) (cstr "f")
    (show 2 ≤ (List.replicate 4 (0 : UInt8)).length by decide)
  obtain ⟨named, before⟩ := (pathOf_fits_iff _ _ _).mp fits
  rcases ends with ⟨short, _⟩ | ⟨_, ends⟩
  · omega
  obtain rfl := ends.of_deep chain_mappable links (chain_outside _) deep before
  exact ⟨m, out, passed, walked, _, _, links, chain_outside _, unmapped, fits⟩

end LfuScan.Find

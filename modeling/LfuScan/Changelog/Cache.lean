import LfuScan.Changelog.Scan
import Mathlib.Data.List.Nodup

/-! The cache of a coalescing scan. A cached object is a node of the age list and of the chain
of its bucket, and `sl_cached` counts it; the code keeps the three in step by hand. Every
operation on the cache keeps them in step and does to the list of the cached objects what it
is there for.
-/

namespace LfuScan.Changelog

open LfuScan.Lustre LfuScan.Lustre.LustreFid LfuScan.Foundations

variable [LustreFid] {σ : Type}

-----------------------------------------------------------------------------------------
-- Gathering a record
-----------------------------------------------------------------------------------------

/-- What every record says of its object, whatever else it carries. -/
structure ObjectCore where
  coFid : LuFid
  coIndex : UInt64
  coFirst : UInt64
  coFirstTime : Int
  coType : ClType
  coTime : Int
  coEvents : List ChangelogRec
  event : Bool
  fid : Bool

def ScanClObj.core (o : ScanClObj) : ObjectCore :=
  {
    coFid := o.coFid
    coIndex := o.coIndex
    coFirst := o.coFirst
    coFirstTime := o.coFirstTime
    coType := o.coType
    coTime := o.coTime
    coEvents := o.coEvents
    event := o.coValid.event
    fid := o.coValid.fid
  }

section Absorb

variable (memory : Memory) (allocs : Nat) (o : ScanClObj) (r : ChangelogRec)

omit [LustreFid] in
theorem absorbName_core : (absorbName memory allocs o r).1.core = o.core := by
  unfold absorbName
  split <;> rfl

omit [LustreFid] in
theorem absorbMode_core : (absorbMode o r).core = o.core := by
  unfold absorbMode
  dsimp only
  split <;> rfl

theorem absorbRename_core : (absorbRename memory allocs o r).1.core = o.core := by
  unfold absorbRename
  split <;> rfl

omit [LustreFid] in
theorem absorbJobid_core : (absorbJobid memory allocs o r).1.core = o.core := by
  unfold absorbJobid
  dsimp only
  split <;> rfl

omit [LustreFid] in
theorem absorbUid_core : (absorbUid o r).core = o.core := by
  unfold absorbUid
  split <;> rfl

/-- The later parts of a record change nothing of what the first part said. -/
theorem scanClAbsorb_core (fid : Option LuFid)
    : (scanClAbsorb memory allocs o r fid).1.core
      = {
          coFid := fid.getD {}
          coIndex := r.crIndex
          coFirst := o.coFirst
          coFirstTime := o.coFirstTime
          coType := r.crType
          coTime := r.seconds
          coEvents := o.coEvents ++ [r]
          event := true
          fid := fidIsSane (fid.getD {})
        } := by
  unfold scanClAbsorb
  dsimp only
  rw [absorbUid_core, absorbJobid_core, absorbRename_core, absorbMode_core, absorbName_core]
  split <;> rfl

omit [LustreFid] in
theorem scanClStrdup_allocs (text : Bytes) : allocs ≤ (scanClStrdup memory allocs text).2 := by
  unfold scanClStrdup
  split
  · exact Nat.le_refl _
  · exact Nat.le_succ _

theorem scanClAbsorb_allocs (fid : Option LuFid)
    : allocs ≤ (scanClAbsorb memory allocs o r fid).2 := by
  have name (o : ScanClObj) : allocs ≤ (absorbName memory allocs o r).2 := by
    unfold absorbName
    split
    · exact Nat.le_refl _
    · exact scanClStrdup_allocs memory allocs _
  have rename (start : Nat) (o : ScanClObj) : start ≤ (absorbRename memory start o r).2 := by
    unfold absorbRename
    split
    · exact scanClStrdup_allocs memory start _
    · exact Nat.le_refl _
  have jobid (start : Nat) (o : ScanClObj) : start ≤ (absorbJobid memory start o r).2 := by
    unfold absorbJobid
    dsimp only
    split
    · exact scanClStrdup_allocs memory start _
    · exact Nat.le_refl _
  exact Nat.le_trans (name _) (Nat.le_trans (rename _ _) (jobid _ _))

end Absorb

/-- The object carries what one record said. -/
structure ScanClObj.Tells (o : ScanClObj) (r : ChangelogRec) : Prop where
  coIndex : o.coIndex = r.crIndex
  coType : o.coType = r.crType
  coTime : o.coTime = r.seconds
  event : o.coValid.event = true
  fid : o.coValid.fid = fidIsSane o.coFid

/-- What gathering a record makes of an object. -/
structure Absorbed (o : ScanClObj) (r : ChangelogRec) (fid : LuFid) (after : ScanClObj)
    : Prop where
  coFid : after.coFid = fid
  coFirst : after.coFirst = o.coFirst
  coEvents : after.coEvents = o.coEvents ++ [r]
  tells : after.Tells r

theorem Absorbed.coIndex {o after : ScanClObj} {r : ChangelogRec} {fid : LuFid}
    (absorbed : Absorbed o r fid after)
    : after.coIndex = r.crIndex :=
  absorbed.tells.coIndex

theorem scanClAbsorb_effect (memory : Memory) (allocs : Nat) (o : ScanClObj)
    (r : ChangelogRec) (fid : Option LuFid)
    : Absorbed o r (fid.getD {}) (scanClAbsorb memory allocs o r fid).1 := by
  have core := scanClAbsorb_core memory allocs o r fid
  generalize (scanClAbsorb memory allocs o r fid).1 = after at core ⊢
  have named : after.coFid = fid.getD {} := congrArg ObjectCore.coFid core
  exact ⟨named, congrArg ObjectCore.coFirst core, congrArg ObjectCore.coEvents core,
    congrArg ObjectCore.coIndex core, congrArg ObjectCore.coType core,
    congrArg ObjectCore.coTime core, congrArg ObjectCore.event core,
    (congrArg ObjectCore.fid core).trans (by rw [named])⟩

-----------------------------------------------------------------------------------------
-- The hash table, the age list and the counter
-----------------------------------------------------------------------------------------

/-- The cached objects, oldest first. -/
def ScanCl.held (s : ScanCl σ) : List ScanClObj := s.slAged.map s.objs

/-- The chains and the age list have the same nodes, each in the chain of its bucket and once,
no two objects have one FID, and the counter counts them as far as it goes.
-/
structure InStep (s : ScanCl σ) : Prop where
  distinct : (s.held.map (·.coFid)).Nodup
  chains
    : ∀ bucket p,
        p ∈ s.slHash bucket ↔ p ∈ s.slAged ∧ scanClBucket (s.objs p).coFid = bucket
  once : ∀ bucket, (s.slHash bucket).Nodup
  counted : s.slCached = UInt32.ofNat s.slAged.length
  live : ∀ p ∈ s.slAged, p < s.allocs

/-- The cache is the same. -/
structure SameCache (s after : ScanCl σ) : Prop where
  objs : after.objs = s.objs
  slAged : after.slAged = s.slAged
  slHash : after.slHash = s.slHash
  slCached : after.slCached = s.slCached
  allocs : s.allocs ≤ after.allocs

namespace SameCache

variable {s mid after : ScanCl σ}

theorem held (same : SameCache s after) : after.held = s.held := by
  rw [ScanCl.held, ScanCl.held, same.objs, same.slAged]

theorem trans (first : SameCache s mid) (second : SameCache mid after) : SameCache s after where
  objs := second.objs.trans first.objs
  slAged := second.slAged.trans first.slAged
  slHash := second.slHash.trans first.slHash
  slCached := second.slCached.trans first.slCached
  allocs := Nat.le_trans first.allocs second.allocs

end SameCache

/-- A change that does not touch the cache. -/
theorem SameCache.of_eq {s after : ScanCl σ} (objs : after.objs = s.objs)
    (slAged : after.slAged = s.slAged) (slHash : after.slHash = s.slHash)
    (slCached : after.slCached = s.slCached) (allocs : after.allocs = s.allocs)
    : SameCache s after :=
  ⟨objs, slAged, slHash, slCached, Nat.le_of_eq allocs.symm⟩

namespace InStep

variable {s : ScanCl σ} {p : ObjPtr} {front back : List ObjPtr}

/-- An empty cache. -/
theorem empty {s : ScanCl σ} (slAged : s.slAged = []) (slHash : s.slHash = fun _ => [])
    (slCached : s.slCached = 0)
    : InStep s where
  distinct := by
    rw [ScanCl.held, slAged]
    exact List.nodup_nil
  chains bucket p := by
    rw [slHash, slAged]
    exact iff_of_false List.not_mem_nil fun member => List.not_mem_nil member.1
  once bucket := by
    rw [slHash]
    exact List.nodup_nil
  counted := by
    rw [slAged, slCached]
    rfl
  live p member := by
    rw [slAged] at member
    cases member

theorem keep (step : InStep s) {after : ScanCl σ} (same : SameCache s after) : InStep after where
  distinct := by
    rw [same.held]
    exact step.distinct
  chains bucket p := by
    rw [same.slHash, same.slAged, same.objs]
    exact step.chains bucket p
  once bucket := by
    rw [same.slHash]
    exact step.once bucket
  counted := by
    rw [same.slCached, same.slAged]
    exact step.counted
  live p member := by
    rw [same.slAged] at member
    exact Nat.lt_of_lt_of_le (step.live p member) same.allocs

theorem allocate (step : InStep s) {allocs : Nat} (more : s.allocs ≤ allocs)
    : InStep { s with allocs } :=
  step.keep ⟨rfl, rfl, rfl, rfl, more⟩

theorem nodup (step : InStep s) : s.slAged.Nodup :=
  .of_map _ (.of_map _ step.distinct)

/-- What is found is the node of an object with the FID. -/
theorem found (step : InStep s) {fid : LuFid} (found : scanClFind s fid = some p)
    : (s.objs p).coFid = fid ∧ ∃ front back, s.slAged = front ++ p :: back := by
  unfold scanClFind at found
  have named := List.find?_some found
  have member := List.mem_of_find?_eq_some found
  exact ⟨eq_of_beq named, List.append_of_mem ((step.chains _ _).mp member).1⟩

/-- What is not found is not in the cache. -/
theorem missing (step : InStep s) {fid : LuFid} (missing : scanClFind s fid = none)
    : fid ∉ s.held.map (·.coFid) := by
  intro member
  obtain ⟨o, cached, named⟩ := List.mem_map.mp member
  obtain ⟨p, linked, rfl⟩ := List.mem_map.mp cached
  have chained := (step.chains (scanClBucket fid) p).mpr ⟨linked, by rw [named]⟩
  exact List.find?_eq_none.mp missing p chained (beq_iff_eq.mpr named)

section Node

variable (step : InStep s) (aged : s.slAged = front ++ p :: back)

include step aged

theorem apart : p ∉ front ∧ p ∉ back := by
  have nodup := step.nodup
  rw [aged, List.nodup_middle, List.nodup_cons, List.mem_append, not_or] at nodup
  exact nodup.1

theorem erase_aged : s.slAged.erase p = front ++ back := by
  rw [aged, List.erase_append_right _ (step.apart aged).1, List.erase_cons_head]

/-- What is left without a node. -/
theorem unlink_held : (scanClUnlink s p).held = front.map s.objs ++ back.map s.objs := by
  rw [ScanCl.held, scanClUnlink]
  dsimp only
  rw [step.erase_aged aged, List.map_append]

theorem unlink : InStep (scanClUnlink s p) where
  distinct := by
    have distinct := step.distinct
    rw [ScanCl.held, aged] at distinct
    rw [step.unlink_held aged]
    refine distinct.sublist ?_
    rw [← List.map_append]
    exact ((List.Sublist.refl front).append (List.sublist_cons_self p back)).map _ |>.map _
  chains bucket q := by
    have chains := step.chains bucket q
    show q ∈ (s.slHash bucket).erase p ↔ q ∈ s.slAged.erase p ∧ _
    rw [(step.once bucket).mem_erase_iff, step.nodup.mem_erase_iff, chains, and_assoc]
    rfl
  once bucket := (step.once bucket).erase p
  counted := by
    show s.slCached - 1 = UInt32.ofNat (s.slAged.erase p).length
    rw [step.counted, step.erase_aged aged, aged]
    simp only [List.length_append, List.length_cons, ← Nat.add_assoc]
    rw [UInt32.ofNat_add]
    exact UInt32.add_sub_cancel _ _
  live q member := step.live q (List.mem_of_mem_erase member)

/-- A node at the back, with another object of the same FID. -/
theorem requeue_held (o : ScanClObj)
    : (s.requeue p o).held = front.map s.objs ++ back.map s.objs ++ [o] := by
  obtain ⟨before, after⟩ := step.apart aged
  have others (q : ObjPtr) (member : q ∈ front ++ back)
      : Function.update s.objs p o q = s.objs q := by
    refine Function.update_of_ne ?_ _ _
    rintro rfl
    exact (List.mem_append.mp member).elim before after
  rw [ScanCl.held, ScanCl.requeue]
  dsimp only
  rw [step.erase_aged aged, List.map_append, List.map_congr_left others, List.map_append]
  simp

theorem requeue {o : ScanClObj} (named : o.coFid = (s.objs p).coFid)
    : InStep (s.requeue p o) where
  distinct := by
    have distinct := step.distinct
    rw [ScanCl.held, aged, List.map_append, List.map_cons, List.map_append, List.map_cons,
      List.nodup_middle] at distinct
    rw [step.requeue_held aged, List.map_append, List.map_append, List.map_singleton, named,
      List.nodup_append_comm]
    exact distinct
  chains bucket q := by
    have moved : q ∈ s.slAged.erase p ++ [p] ↔ q ∈ s.slAged := by
      rw [step.erase_aged aged, aged]
      simp only [List.mem_append, List.mem_cons, List.not_mem_nil, or_false]
      rw [or_assoc, or_comm (a := q ∈ back)]
    show q ∈ s.slHash bucket ↔ q ∈ s.slAged.erase p ++ [p]
      ∧ scanClBucket (Function.update s.objs p o q).coFid = bucket
    rw [moved, step.chains bucket q]
    by_cases same : q = p
    · rw [same, Function.update_self, named]
    · rw [Function.update_of_ne same]
  once bucket := step.once bucket
  counted := by
    show s.slCached = UInt32.ofNat (s.slAged.erase p ++ [p]).length
    rw [step.counted, step.erase_aged aged, aged]
    simp only [List.length_append, List.length_cons, List.length_nil]
    congr 1
  live q member := by
    have member : q ∈ s.slAged.erase p ++ [p] := member
    rcases List.mem_append.mp member with old | moved
    · exact step.live q (List.mem_of_mem_erase old)
    · rw [List.mem_singleton.mp moved]
      exact step.live p (by rw [aged]; exact List.mem_append_right _ List.mem_cons_self)

end Node

section Link

variable {o : ScanClObj} (fresh : p ∉ s.slAged)

include fresh

theorem link_held : (s.link p o).held = s.held ++ [o] := by
  have others (q : ObjPtr) (member : q ∈ s.slAged) : Function.update s.objs p o q = s.objs q := by
    refine Function.update_of_ne ?_ _ _
    rintro rfl
    exact fresh member
  rw [ScanCl.held, ScanCl.link]
  dsimp only
  rw [List.map_append, List.map_congr_left others]
  simp [ScanCl.held]

theorem link (step : InStep s) (unknown : o.coFid ∉ s.held.map (·.coFid)) (live : p < s.allocs)
    : InStep (s.link p o) where
  distinct := by
    rw [link_held fresh, List.map_append, List.nodup_append_comm]
    exact List.nodup_cons.mpr ⟨unknown, step.distinct⟩
  chains bucket q := by
    show q ∈ Function.update s.slHash (scanClBucket o.coFid)
        (p :: s.slHash (scanClBucket o.coFid)) bucket
      ↔ q ∈ s.slAged ++ [p] ∧ scanClBucket (Function.update s.objs p o q).coFid = bucket
    rw [List.mem_append, List.mem_singleton]
    by_cases same : q = p
    · subst same
      rw [Function.update_self]
      by_cases home : scanClBucket o.coFid = bucket
      · subst home
        rw [Function.update_self]
        exact iff_of_true List.mem_cons_self ⟨.inr rfl, rfl⟩
      · rw [Function.update_of_ne (Ne.symm home)]
        exact iff_of_false (fun member => fresh ((step.chains _ _).mp member).1)
          fun member => home member.2
    · rw [Function.update_of_ne same, or_iff_left same, ← step.chains bucket q]
      by_cases home : scanClBucket o.coFid = bucket
      · subst home
        rw [Function.update_self, List.mem_cons, or_iff_right same]
      · rw [Function.update_of_ne (Ne.symm home)]
  once bucket := by
    show (Function.update s.slHash (scanClBucket o.coFid)
      (p :: s.slHash (scanClBucket o.coFid)) bucket).Nodup
    by_cases home : scanClBucket o.coFid = bucket
    · subst home
      rw [Function.update_self]
      exact List.nodup_cons.mpr
        ⟨fun member => fresh ((step.chains _ _).mp member).1, step.once _⟩
    · rw [Function.update_of_ne (Ne.symm home)]
      exact step.once bucket
  counted := by
    show s.slCached + 1 = UInt32.ofNat (s.slAged ++ [p]).length
    rw [step.counted, List.length_append, UInt32.ofNat_add]
    rfl
  live q member := by
    rcases List.mem_append.mp member with old | new
    · exact step.live q old
    · rw [List.mem_singleton.mp new]
      exact live

end Link

end InStep

-----------------------------------------------------------------------------------------
-- A record comes to its object
-----------------------------------------------------------------------------------------

/-- The object is cached last, after the `others`, and nothing but the cache has changed. -/
structure Queued (s : ScanCl σ) (others : List ScanClObj) (p : ObjPtr) (o : ScanClObj)
    (after : ScanCl σ)
    : Prop where
  step : InStep after
  held : after.held = others ++ [o]
  last : ∃ front, after.slAged = front ++ [p]
  slData : after.slData = s.slData
  slSeen : after.slSeen = s.slSeen
  slNow : after.slNow = s.slNow
  slAccepted : after.slAccepted = s.slAccepted
  trace : after.trace = s.trace

section Exits

variable (sc : ScanParams) (env : ScanEnv) (consumer : Consumer σ)

/-- A cached object is delivered and leaves, unless that stops the scan. -/
def leave (s : ScanCl σ) (p : ObjPtr) : Int × ScanCl σ :=
  let (rc, after) := scanClDeliver sc env consumer s (s.objs p) true
  if rc != 0 then (rc, after) else (0, scanClUnlink after p)

theorem leave_exit (s : ScanCl σ) (p : ObjPtr)
    : let delivered := scanClDeliver sc env consumer s (s.objs p) true
      delivered.1 = 0 ∧ leave sc env consumer s p = (0, scanClUnlink delivered.2 p)
        ∨ delivered.1 ≠ 0 ∧ leave sc env consumer s p = delivered := by
  unfold leave
  dsimp only
  split
  · rename_i failed
    exact .inr ⟨bne_iff_ne.mp failed, rfl⟩
  · rename_i ok
    exact .inl ⟨by simpa using ok, rfl⟩

theorem flushLoop_cons (all : Bool) (p : ObjPtr) (rest : List ObjPtr) (s : ScanCl σ)
    : flushLoop sc env consumer all (p :: rest) s
      = if !all && s.slNow - (s.objs p).coTime < sc.slMinAge.toNat then (0, s)
        else if (leave sc env consumer s p).1 != 0 then leave sc env consumer s p
        else flushLoop sc env consumer all rest (leave sc env consumer s p).2 := by
  rw [flushLoop]
  rcases leave_exit sc env consumer s p with ⟨ok, ends⟩ | ⟨failed, ends⟩
  · rw [ends]
    simp [ok]
  · rw [ends]
    simp [failed]

/-- An object that was found has one record more, and may be released at once. -/
theorem objectAgain_exit {s : ScanCl σ} (step : InStep s) (r : ChangelogRec) {fid : LuFid}
    {p : ObjPtr} (found : scanClFind s fid = some p)
    : ∃ front back o after,
        s.held = front ++ s.objs p :: back
        ∧ (s.objs p).coFid = fid
        ∧ Absorbed (s.objs p) r fid o
        ∧ Queued s (front ++ back) p o after
        ∧ (objectAgain sc env consumer s r fid p = (0, after)
            ∨ objectAgain sc env consumer s r fid p = leave sc env consumer after p) := by
  obtain ⟨named, front, back, aged⟩ := step.found found
  have absorbed : Absorbed (s.objs p) r fid
      (scanClAbsorb env.memory s.allocs (s.objs p) r (some fid)).1 :=
    scanClAbsorb_effect env.memory s.allocs (s.objs p) r (some fid)
  have more := scanClAbsorb_allocs env.memory s.allocs (s.objs p) r (some fid)
  unfold objectAgain leave
  generalize scanClAbsorb env.memory s.allocs (s.objs p) r (some fid) = made at absorbed more ⊢
  obtain ⟨o, allocs⟩ := made
  have allocated : InStep { s with allocs } := step.allocate more
  have object : ({ s with allocs }.requeue p o).objs p = o := Function.update_self ..
  refine ⟨front.map s.objs, back.map s.objs, o, { s with allocs }.requeue p o, ?_, named, absorbed,
    ⟨allocated.requeue aged (absorbed.coFid.trans named.symm), allocated.requeue_held aged o,
      ⟨s.slAged.erase p, rfl⟩, rfl, rfl, rfl, rfl, rfl⟩, ?_⟩
  · rw [ScanCl.held, aged, List.map_append, List.map_cons]
  · rw [object]
    dsimp only
    split
    · exact .inr rfl
    · exact .inl rfl

/-- The ways out of `objectNew`: no memory, or a new object of one record, which may push out
the oldest.
-/
inductive NewExit (s : ScanCl σ) (r : ChangelogRec) (fid : LuFid) : Int × ScanCl σ → Prop
  | noMemory (full : env.memory s.allocs = false)
    : NewExit s r fid
        (-enomem,
          { s with allocs := s.allocs + 1, trace := s.trace ++ [.noMemory fid r.crIndex] })
  | kept {o : ScanClObj} {after : ScanCl σ} (absorbed : Absorbed { coFirst := r.crIndex } r fid o)
    (queued : Queued s s.held s.allocs o after) (fits : ¬after.slCached > sc.slMaxCached)
    : NewExit s r fid (0, after)
  | pushed {o : ScanClObj} {after : ScanCl σ} {old : ObjPtr} {rest : List ObjPtr}
    (absorbed : Absorbed { coFirst := r.crIndex } r fid o)
    (queued : Queued s s.held s.allocs o after) (full : after.slCached > sc.slMaxCached)
    (aged : after.slAged = [] ++ old :: rest)
    : NewExit s r fid (leave sc env consumer after old)

theorem objectNew_exit {s : ScanCl σ} (step : InStep s) (r : ChangelogRec) {fid : LuFid}
    (missing : scanClFind s fid = none)
    : NewExit sc env consumer s r fid (objectNew sc env consumer s r fid) := by
  unfold objectNew
  dsimp only
  split
  · rename_i full
    exact .noMemory (by simpa using full)
  have absorbed : Absorbed {} r fid
      (scanClAbsorb env.memory (s.allocs + 1) {} r (some fid)).1 :=
    scanClAbsorb_effect env.memory (s.allocs + 1) {} r (some fid)
  have more := scanClAbsorb_allocs env.memory (s.allocs + 1) {} r (some fid)
  generalize scanClAbsorb env.memory (s.allocs + 1) {} r (some fid) = made at absorbed more ⊢
  obtain ⟨made, allocs⟩ := made
  dsimp only at absorbed more ⊢
  replace absorbed : Absorbed { coFirst := r.crIndex } r fid
      { made with coFirst := made.coIndex, coFirstTime := made.coTime } := by
    obtain ⟨coFid, _, coEvents, tells⟩ := absorbed
    exact ⟨coFid, tells.coIndex, coEvents, ⟨tells.coIndex, tells.coType, tells.coTime, tells.event,
      tells.fid⟩⟩
  generalize { made with coFirst := made.coIndex, coFirstTime := made.coTime : ScanClObj } = o
    at absorbed ⊢
  have fresh : s.allocs ∉ { s with allocs }.slAged := fun member =>
    Nat.lt_irrefl _ (step.live _ member)
  have allocated : InStep { s with allocs } := step.allocate (Nat.le_of_succ_le more)
  have unknown : o.coFid ∉ s.held.map (·.coFid) := absorbed.coFid ▸ step.missing missing
  have queued : Queued s s.held s.allocs o ({ s with allocs }.link s.allocs o) :=
    ⟨.link fresh allocated unknown more, InStep.link_held fresh, ⟨s.slAged, rfl⟩, rfl, rfl, rfl,
      rfl, rfl⟩
  split
  · rename_i full
    split
    · rename_i empty
      simp [ScanCl.link] at empty
    · rename_i old rest aged
      exact .pushed absorbed queued full aged
  · rename_i fits
    exact .kept absorbed queued fits

end Exits

end LfuScan.Changelog

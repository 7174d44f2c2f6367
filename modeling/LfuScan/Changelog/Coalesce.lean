import LfuScan.Foundations.Grouping
import LfuScan.Changelog.Calls

/-! Coalescing loses no event. Objects leave the cache for four reasons and may come back,
but whatever the reason an object leaves with all its events since it last left. What a
consumer was handed in a scan that nothing stopped is therefore determined by the log alone,
object by object.
-/

namespace LfuScan.Changelog

open LfuScan.Lustre LfuScan.Lustre.LustreFid LfuScan.Foundations

section Scans

variable [LustreFid] {σ : Type}

/-- The object tells of the last of the records it gathered. -/
def ScanClObj.TellsLast (o : ScanClObj) : Prop :=
  ∃ r, o.coEvents.getLast? = some r ∧ o.Tells r

/-- What is delivered tells of its last record. What comes out of the cache has the FID of an
object, everything else has none.
-/
structure ScanClObj.Proper (o : ScanClObj) (keyed : Bool) : Prop where
  tells : o.TellsLast
  named : keyed = true → fidIsSane o.coFid = true ∧ o.coType ≠ .mark
  nameless : keyed = false → o.coFid = {}

/-- What is delivered has a FID just when it comes out of the cache. -/
theorem ScanClObj.Proper.fid {o : ScanClObj} {keyed : Bool} (proper : o.Proper keyed)
    : (scanClRecEvent o).lfsrValid.fid = keyed := by
  obtain ⟨last, _, tells⟩ := proper.tells
  refine tells.fid.trans ?_
  cases keyed with
  | true => exact (proper.named rfl).1
  | false =>
      rw [proper.nameless rfl, Bool.eq_false_iff]
      exact fun sane => sane_seq _ sane rfl

/-- What a record is about is an object, and the record is not a mark. -/
theorem named_of_mem {r : ChangelogRec} {fid : LuFid} (about : fid ∈ scanClRecFids r)
    : fidIsSane fid = true ∧ r.crType ≠ .mark := by
  have target : ∀ fid ∈ (if fidIsSane r.crTfid then [r.crTfid] else []),
      fidIsSane fid = true := by
    intro fid member
    split at member
    · rename_i sane
      rwa [List.mem_singleton.mp member]
    · cases member
  unfold scanClRecFids at about
  dsimp only at about
  generalize (if fidIsSane r.crTfid then [r.crTfid] else []) = fids at target about
  split at about
  · cases about
  rename_i unmarked
  refine ⟨?_, by simpa using unmarked⟩
  split at about
  · split at about
    · rename_i moved
      rcases List.mem_append.mp about with first | second
      · exact target fid first
      · rw [List.mem_singleton.mp second]
        exact (Bool.and_eq_true _ _ ▸ moved).1
    · exact target fid about
  · exact target fid about

/-- An object that has gathered a record about it. -/
theorem Absorbed.proper {o next : ScanClObj} {r : ChangelogRec} {fid : LuFid}
    (absorbed : Absorbed o r fid next) (about : fid ∈ scanClRecFids r)
    : next.Proper true := by
  obtain ⟨sane, unmarked⟩ := named_of_mem about
  refine ⟨⟨r, ?_, absorbed.tells⟩,
    fun _ => ⟨absorbed.coFid ▸ sane, absorbed.tells.coType ▸ unmarked⟩, by simp⟩
  rw [absorbed.coEvents, List.getLast?_concat]

/-- The cache entry as a group of records. -/
def ScanClObj.group (o : ScanClObj) : LuFid × List ChangelogRec := (o.coFid, o.coEvents)

theorem Absorbed.group {o next : ScanClObj} {r : ChangelogRec} {fid : LuFid}
    (absorbed : Absorbed o r fid next)
    : next.group = (fid, o.coEvents ++ [r]) := by
  rw [ScanClObj.group, absorbed.coFid, absorbed.coEvents]

/-- The ways a delivery that does not stop the scan can end. -/
inductive Settles (sc : ScanParams) (consumer : Consumer σ) (o : ScanClObj) (keyed : Bool)
    (data : σ) (seen : ScanClSeen)
    : σ → ScanClSeen → Prop
  | filtered (rejected : 0 < (consumer.verdict (scanClRecEvent o) data).1)
    : Settles sc consumer o keyed data seen
        (consumer.verdict (scanClRecEvent o) data).2 seen
  | repeated (passed : (consumer.verdict (scanClRecEvent o) data).1 = 0)
    (once : (keyed && sc.once) = true) (known : seen.has o.coFid = true)
    : Settles sc consumer o keyed data seen
        (consumer.verdict (scanClRecEvent o) data).2 seen
  | taken {after : ScanClSeen} (passed : (consumer.verdict (scanClRecEvent o) data).1 = 0)
    (new : (keyed && sc.once) = true → seen.has o.coFid = false)
    (took
      : (consumer.cb (scanClRecEvent o)
          (consumer.verdict (scanClRecEvent o) data).2).1 = 0)
    (added : ∀ fid, after.has fid = (seen.has fid || (keyed && sc.once && fid == o.coFid)))
    : Settles sc consumer o keyed data seen
        (consumer.cb (scanClRecEvent o) (consumer.verdict (scanClRecEvent o) data).2).2 after

section Deliver

variable (sc : ScanParams) (env : ScanEnv) (consumer : Consumer σ)

/-- Accepting an index changes neither the consumer's data nor what it has seen. -/
theorem Settles.accept {o : ScanClObj} {keyed : Bool} {data : σ} {seen : ScanClSeen}
    {after : ScanCl σ} (settles : Settles sc consumer o keyed data seen after.slData after.slSeen)
    (index : UInt64)
    : Settles sc consumer o keyed data seen (scanClAccept after index).slData
        (scanClAccept after index).slSeen := by
  unfold scanClAccept
  split <;> exact settles

theorem scanClDeliver_settles (s : ScanCl σ) {o : ScanClObj} {keyed : Bool}
    (proper : o.Proper keyed)
    : let result := scanClDeliver sc env consumer s o keyed
      result.1 = 0
        → Settles sc consumer o keyed s.slData s.slSeen result.2.slData result.2.slSeen := by
  unfold scanClDeliver
  simp only [consumer.ask_verdict]
  split
  · rename_i rejected
    exact fun _ => Settles.accept sc consumer (.filtered rejected) _
  rename_i notRejected
  split
  · exact fun ok => absurd ok (by omega)
  have passed : (consumer.verdict (scanClRecEvent o) s.slData).1 = 0 := by omega
  split
  · rename_i known
    rw [Bool.and_eq_true] at known
    exact fun _ => Settles.accept sc consumer (.repeated passed known.1 known.2) _
  rename_i new
  have unknown : (keyed && sc.once) = true → s.slSeen.has o.coFid = false := by
    intro once
    simpa [once] using new
  split
  · rename_i failed
    exact fun ok => absurd ok (by simpa using failed)
  rename_i took
  replace took := (by simpa using took : (consumer.cb (scanClRecEvent o)
    (consumer.verdict (scanClRecEvent o) s.slData).2).1 = 0)
  split
  · rename_i once
    have added := s.slSeen.add_exit env.memory s.allocs o.coFid
    split
    · rename_i failed
      exact fun ok => absurd failed (Int.not_lt.mpr (Int.le_of_eq ok.symm))
    · rename_i ok
      refine fun _ => Settles.accept sc consumer (.taken passed unknown took fun fid => ?_) _
      have named : scanClFidZero o.coFid = false := by
        have sane := (proper.named (Bool.and_eq_true_iff.mp once).1).1
        rw [scanClFidZero, Bool.and_eq_false_iff, beq_eq_false_iff_ne]
        exact .inl (sane_seq _ sane)
      refine (added.has ok fid).trans ?_
      rw [named, once, Bool.not_false, Bool.and_true, Bool.true_and]
  · rename_i once
    refine fun _ => Settles.accept sc consumer (.taken passed unknown took fun fid => ?_) _
    rw [Bool.not_eq_true] at once
    simp [once, ScanCl.settle]

end Deliver

-----------------------------------------------------------------------------------------
-- What was sent and what is held
-----------------------------------------------------------------------------------------

/-- The deliveries of a scan, in their order: the object, and whether it came out of the
cache.
-/
abbrev Deliveries := List (ScanClObj × Bool)

/-- What came out of the cache, as groups of records. -/
def Deliveries.keyed (sent : Deliveries) : List (LuFid × List ChangelogRec) :=
  (sent.filter (·.2)).map (·.1.group)

/-- What was delivered without going through the cache. -/
def Deliveries.loose (sent : Deliveries) : List (LuFid × List ChangelogRec) :=
  (sent.filter (!·.2)).map (·.1.group)

/-- A property of the deliveries so far and of what they made of the consumer, kept by every
delivery.
-/
def KeptByDelivery (sc : ScanParams) (consumer : Consumer σ)
    (holds : Deliveries → σ → ScanClSeen → Prop)
    : Prop :=
  ∀ sent data seen o keyed data' seen', holds sent data seen → o.Proper keyed →
    Settles sc consumer o keyed data seen data' seen' → holds (sent ++ [(o, keyed)]) data' seen'

/-- Between two calls of the scan: `input` is what was read about each object, `loose` what
was read about none, and `fits` says how many objects the cache may hold.
-/
structure Coalescing (holds : Deliveries → σ → ScanClSeen → Prop)
    (input : LuFid → List ChangelogRec) (loose : List ChangelogRec) (fits : Nat → Prop)
    (sent : Deliveries) (s : ScanCl σ)
    : Prop where
  holds : holds sent s.slData s.slSeen
  step : InStep s
  grouping : Grouping sent.keyed (s.held.map ScanClObj.group) input
  loose : sent.loose = loose.map fun r => ({}, [r])
  proper : ∀ x ∈ sent, x.1.Proper x.2
  cached : ∀ o ∈ s.held, o.Proper true
  room : fits s.held.length

/-- Some deliveries explain the state. -/
def Coalesced (holds : Deliveries → σ → ScanClSeen → Prop)
    (input : LuFid → List ChangelogRec) (loose : List ChangelogRec) (fits : Nat → Prop)
    (s : ScanCl σ)
    : Prop :=
  ∃ sent, Coalescing holds input loose fits sent s

/-- What the cache may hold between two records. No number of 32 bits exceeds the largest limit,
which therefore limits nothing.
-/
def ScanParams.Fits (sc : ScanParams) (n : Nat) : Prop :=
  sc.slMaxCached ≠ 0xffffffff → n ≤ sc.slMaxCached.toNat

omit [LustreFid] in
theorem ScanParams.Fits.fewer {sc : ScanParams} {n m : Nat} (fits : sc.Fits n) (less : m ≤ n)
    : sc.Fits m :=
  fun limit => Nat.le_trans less (fits limit)

omit [LustreFid] in
/-- One object more, if the counter does not exceed the limit. -/
theorem ScanParams.Fits.more {sc : ScanParams} {n : Nat} (fits : sc.Fits n)
    (counted : ¬UInt32.ofNat (n + 1) > sc.slMaxCached)
    : sc.Fits (n + 1) := by
  intro limit
  have few := fits limit
  have below : sc.slMaxCached.toNat < 2 ^ 32 - 1 := by
    have different : sc.slMaxCached.toNat ≠ 2 ^ 32 - 1 := fun same =>
      limit (UInt32.toNat_inj.mp same)
    have small := sc.slMaxCached.toNat_lt
    omega
  rw [gt_iff_lt, UInt32.not_lt, UInt32.le_iff_toNat_le, UInt32.toNat_ofNat'] at counted
  omega

section Books

variable {holds : Deliveries → σ → ScanClSeen → Prop} {input : LuFid → List ChangelogRec}
  {loose : List ChangelogRec} {fits : Nat → Prop} {s : ScanCl σ}

theorem Coalesced.frame (books : Coalesced holds input loose fits s) {after : ScanCl σ}
    (data : after.slData = s.slData) (seen : after.slSeen = s.slSeen)
    (cache : SameCache s after)
    : Coalesced holds input loose fits after := by
  obtain ⟨sent, books⟩ := books
  refine ⟨sent, ?_, books.step.keep cache, ?_, books.loose, books.proper, ?_, ?_⟩
  · rw [data, seen]
    exact books.holds
  · rw [cache.held]
    exact books.grouping
  · rw [cache.held]
    exact books.cached
  · rw [cache.held]
    exact books.room

variable (sc : ScanParams) (env : ScanEnv) (consumer : Consumer σ)

/-- A cached object is delivered and leaves. -/
theorem Coalesced.release (kept : KeptByDelivery sc consumer holds)
    (books : Coalesced holds input loose fits s) {p : ObjPtr} {front back : List ObjPtr}
    (aged : s.slAged = front ++ p :: back) {left : Nat → Prop}
    (room : left (front ++ back).length)
    : let result := leave sc env consumer s p
      result.1 = 0 → Coalesced holds input loose left result.2 := by
  intro result ok
  obtain ⟨sent, books⟩ := books
  obtain ⟨ok, ends⟩ :=
    (leave_exit sc env consumer s p).resolve_right fun failed => failed.1 (failed.2 ▸ ok)
  rw [show result = _ from ends]
  have cache := (scanClDeliver_effect sc env consumer s (s.objs p) true).cache
  have here : s.held = front.map s.objs ++ s.objs p :: back.map s.objs := by
    rw [ScanCl.held, aged, List.map_append, List.map_cons]
  have proper := books.cached (s.objs p) (by simp [here])
  have still := cache.slAged.trans aged
  have step := books.step.keep cache
  have after := step.unlink_held still
  rw [cache.objs] at after
  have grouping := books.grouping
  rw [here, List.map_append, List.map_cons] at grouping
  refine ⟨sent ++ [(s.objs p, true)], ?_, step.unlink still, ?_, ?_, ?_, ?_, ?_⟩
  · exact kept _ _ _ _ _ _ _ books.holds proper
      (scanClDeliver_settles sc env consumer s proper ok)
  · rw [after]
    simpa [Deliveries.keyed] using grouping.release
  · simpa [Deliveries.loose] using books.loose
  · intro x member
    rcases List.mem_append.mp member with old | new
    · exact books.proper x old
    · rw [List.mem_singleton.mp new]
      exact proper
  · intro other member
    apply books.cached
    rw [after] at member
    rw [here]
    rcases List.mem_append.mp member with front | back
    · exact List.mem_append_left _ front
    · exact List.mem_append_right _ (List.mem_cons_of_mem _ back)
  · rwa [after, ← List.map_append, List.length_map]

/-- A record about no object is delivered on its own. -/
theorem Coalesced.deliverLoose (kept : KeptByDelivery sc consumer holds)
    (books : Coalesced holds input loose fits s) {one : ScanClObj} {r : ChangelogRec}
    (group : one.group = ({}, [r])) (proper : one.Proper false)
    : let result := scanClDeliver sc env consumer s one false
      result.1 = 0 → Coalesced holds input (loose ++ [r]) fits result.2 := by
  intro result ok
  obtain ⟨sent, books⟩ := books
  have cache : SameCache s result.2 := (scanClDeliver_effect sc env consumer s one false).cache
  refine ⟨sent ++ [(one, false)], ?_, books.step.keep cache, ?_, ?_, ?_, ?_, ?_⟩
  · exact kept _ _ _ _ _ _ _ books.holds proper
      (scanClDeliver_settles sc env consumer s proper ok)
  · rw [cache.held]
    simpa [Deliveries.keyed] using books.grouping
  · have sentLoose := books.loose
    unfold Deliveries.loose at sentLoose ⊢
    rw [List.filter_append, List.map_append, sentLoose, List.map_append]
    simp [group]
  · intro x member
    rcases List.mem_append.mp member with old | new
    · exact books.proper x old
    · rw [List.mem_singleton.mp new]
      exact proper
  · rw [cache.held]
    exact books.cached
  · rw [cache.held]
    exact books.room

-----------------------------------------------------------------------------------------
-- One record
-----------------------------------------------------------------------------------------

theorem flushLoop_coalesced (kept : KeptByDelivery sc consumer holds) (all : Bool)
    (aged : List ObjPtr) (s : ScanCl σ) (here : s.slAged = aged)
    (books : Coalesced holds input loose sc.Fits s)
    : let result := flushLoop sc env consumer all aged s
      result.1 = 0
        → Coalesced holds input loose sc.Fits result.2
          ∧ (all = true → result.2.held = []) := by
  induction aged generalizing s with
  | nil => exact fun _ => ⟨books, fun _ => by rw [flushLoop, ScanCl.held, here]; rfl⟩
  | cons p rest ih =>
      rw [flushLoop_cons]
      split
      · rename_i quiet
        refine fun _ => ⟨books, fun every => ?_⟩
        simp [every] at quiet
      · have room : sc.Fits ([] ++ rest).length := by
          obtain ⟨_, books⟩ := books
          have room := books.room
          rw [ScanCl.held, here, List.length_map, List.length_cons] at room
          exact room.fewer (Nat.le_succ _)
        have oldest : s.slAged = [] ++ p :: rest := here
        have released := books.release sc env consumer kept oldest room
        split
        · rename_i failed
          exact fun ok => absurd ok (by simpa using failed)
        · rename_i ok
          have ok : (leave sc env consumer s p).1 = 0 := by simpa using ok
          exact ih _ (leave_aged sc env consumer here ok) (released ok)

theorem objectAgain_coalesced (kept : KeptByDelivery sc consumer holds) {r : ChangelogRec}
    {fid : LuFid} {p : ObjPtr} (books : Coalesced holds input loose fits s)
    (found : scanClFind s fid = some p) (about : fid ∈ scanClRecFids r)
    (fewer : ∀ n, fits (n + 1) → fits n)
    : let result := objectAgain sc env consumer s r fid p
      result.1 = 0 → Coalesced holds (received input fid r) loose fits result.2 := by
  obtain ⟨sent, books⟩ := books
  obtain ⟨front, back, next, after, here, named, absorbed, queued, way⟩ :=
    objectAgain_exit sc env consumer books.step r found
  have room : fits (front.length + back.length + 1) := by
    have room := books.room
    rwa [here, List.length_append, List.length_cons, ← Nat.add_assoc] at room
  have gathered : Coalesced holds (received input fid r) loose fits after := by
    refine ⟨sent, ?_, queued.step, ?_, books.loose, books.proper, ?_, ?_⟩
    · rw [queued.slData, queued.slSeen]
      exact books.holds
    · have grouping := books.grouping
      rw [here, List.map_append, List.map_cons] at grouping
      subst named
      replace grouping : Grouping sent.keyed
          (front.map ScanClObj.group
            ++ ((s.objs p).coFid, (s.objs p).coEvents) :: back.map ScanClObj.group)
          input := grouping
      rw [queued.held, List.map_append, List.map_append, List.map_singleton, absorbed.group]
      exact grouping.gather r
    · intro other member
      rw [queued.held] at member
      simp only [List.mem_append, List.mem_singleton] at member
      rcases member with (front | back) | rfl
      · exact books.cached other (by rw [here]; exact List.mem_append_left _ front)
      · exact books.cached other
          (by rw [here]; exact List.mem_append_right _ (List.mem_cons_of_mem _ back))
      · exact absorbed.proper about
    · rw [queued.held, List.length_append, List.length_append]
      exact room
  rcases way with ends | busy
  · rw [ends]
    exact fun _ => gathered
  · obtain ⟨others, last⟩ := queued.last
    rw [busy]
    refine gathered.release sc env consumer kept last (fewer _ ?_)
    have length := congrArg List.length queued.held
    rw [ScanCl.held, last] at length
    simp only [List.length_map, List.length_append, List.length_cons, List.length_nil] at length ⊢
    exact length ▸ room

theorem objectNew_coalesced (kept : KeptByDelivery sc consumer holds) {r : ChangelogRec}
    {fid : LuFid} (books : Coalesced holds input loose sc.Fits s)
    (missing : scanClFind s fid = none) (about : fid ∈ scanClRecFids r)
    : let result := objectNew sc env consumer s r fid
      result.1 = 0 → Coalesced holds (received input fid r) loose sc.Fits result.2 := by
  obtain ⟨sent, books⟩ := books
  have way := objectNew_exit sc env consumer books.step r missing
  have gathered {o : ScanClObj} {after : ScanCl σ} {fits : Nat → Prop}
      (absorbed : Absorbed { coFirst := r.crIndex } r fid o)
      (queued : Queued s s.held s.allocs o after) (room : fits (s.held.length + 1))
      : Coalesced holds (received input fid r) loose fits after := by
    refine ⟨sent, ?_, queued.step, ?_, books.loose, books.proper, ?_, ?_⟩
    · rw [queued.slData, queued.slSeen]
      exact books.holds
    · have absent : fid ∉ (s.held.map ScanClObj.group).map Prod.fst := by
        rw [List.map_map]
        exact books.step.missing missing
      rw [queued.held, List.map_append, List.map_singleton, absorbed.group]
      exact books.grouping.begin absent r
    · intro other member
      rw [queued.held] at member
      rcases List.mem_append.mp member with old | new
      · exact books.cached other old
      · rw [List.mem_singleton.mp new]
        exact absorbed.proper about
    · rwa [queued.held, List.length_append]
  have total {o : ScanClObj} {after : ScanCl σ} (queued : Queued s s.held s.allocs o after)
      : after.slAged.length = s.held.length + 1 := by
    have length := congrArg List.length queued.held
    rwa [ScanCl.held, List.length_map, List.length_append] at length
  generalize objectNew sc env consumer s r fid = result at way ⊢
  cases way with
  | noMemory => exact fun ok => absurd ok (show -enomem ≠ 0 by decide)
  | kept absorbed queued few =>
      refine fun _ => gathered absorbed queued (books.room.more ?_)
      rwa [← total queued, ← queued.step.counted]
  | pushed absorbed queued full aged =>
      -- the oldest leaves early
      have room := books.room
      rw [← Nat.succ.inj ((congrArg List.length aged).symm.trans (total queued))] at room
      have full : Coalesced holds (received input fid r) loose (fun _ => True) _ :=
        gathered absorbed queued trivial
      exact full.release sc env consumer kept aged room

/-- A record is gathered under each of its objects in turn. -/
def receivedFor (r : ChangelogRec) (input : LuFid → List ChangelogRec) (fids : List LuFid)
    : LuFid → List ChangelogRec :=
  fids.foldl (fun input fid => received input fid r) input

theorem objectLoop_coalesced (kept : KeptByDelivery sc consumer holds) {r : ChangelogRec}
    (fids : List LuFid) (about : ∀ fid ∈ fids, fid ∈ scanClRecFids r)
    (input : LuFid → List ChangelogRec) (s : ScanCl σ)
    (books : Coalesced holds input loose sc.Fits s)
    : let result := objectLoop sc env consumer r fids s
      result.1 = 0
        → Coalesced holds (receivedFor r input fids) loose sc.Fits result.2 := by
  induction fids generalizing input s with
  | nil => exact fun _ => books
  | cons fid rest ih =>
      have one : let result := scanClObjectOne sc env consumer s r fid
          result.1 = 0
            → Coalesced holds (received input fid r) loose sc.Fits result.2 := by
        unfold scanClObjectOne
        split
        · rename_i o found
          exact objectAgain_coalesced sc env consumer kept books found
            (about fid List.mem_cons_self) fun _ fits => fits.fewer (Nat.le_succ _)
        · rename_i missing
          exact objectNew_coalesced sc env consumer kept books missing
            (about fid List.mem_cons_self)
      unfold objectLoop
      dsimp only at one ⊢
      split
      · rename_i failed
        exact fun ok => absurd ok (by simpa using failed)
      · rename_i ok
        exact ih (fun other member => about other (List.mem_cons_of_mem _ member)) _ _
          (one (by simpa using ok))

theorem scanClEvent_loose (kept : KeptByDelivery sc consumer holds) {r : ChangelogRec}
    (none : scanClRecFids r = []) (books : Coalesced holds input loose fits s)
    : let result := scanClEvent sc env consumer s r
      result.1 = 0 → Coalesced holds input (loose ++ [r]) fits result.2 := by
  have single : eventFids r = [Option.none] := by simp [eventFids, none]
  have absorbed := scanClAbsorb_effect env.memory s.allocs {} r Option.none
  have more := scanClAbsorb_allocs env.memory s.allocs {} r Option.none
  unfold scanClEvent
  rw [single]
  unfold eventLoop
  generalize scanClAbsorb env.memory s.allocs {} r Option.none = made at absorbed more ⊢
  obtain ⟨one, allocs⟩ := made
  replace absorbed : Absorbed {} r {} one := absorbed
  have framed : Coalesced holds input loose fits { s with allocs } :=
    books.frame rfl rfl ⟨rfl, rfl, rfl, rfl, more⟩
  have proper : one.Proper false := by
    refine ⟨⟨r, ?_, absorbed.tells⟩, by simp, fun _ => absorbed.coFid⟩
    rw [absorbed.coEvents, List.getLast?_concat]
  have delivered := framed.deliverLoose sc env consumer kept absorbed.group proper
  dsimp only at delivered ⊢
  split
  · rename_i failed
    exact fun ok => absurd ok (by simpa using failed)
  · rename_i ok
    exact fun _ => delivered (by simpa using ok)

/-- The records about an object. -/
def recordsAbout (log : List ChangelogRec) (fid : LuFid) : List ChangelogRec :=
  log.filter (fid ∈ scanClRecFids ·)

/-- The records about no object. -/
def recordsAboutNone (log : List ChangelogRec) : List ChangelogRec :=
  log.filter (scanClRecFids · = [])

theorem scanClRecFids_nodup (r : ChangelogRec) : (scanClRecFids r).Nodup := by
  have target : (if fidIsSane r.crTfid then [r.crTfid] else []).Nodup := by
    split <;> simp
  unfold scanClRecFids
  dsimp only
  generalize (if fidIsSane r.crTfid then [r.crTfid] else []) = fids at target ⊢
  split
  · exact List.nodup_nil
  split
  · split
    · rename_i moved
      rw [Bool.and_eq_true, Bool.not_eq_true', List.contains_eq_mem, decide_eq_false_iff_not]
        at moved
      rw [List.nodup_append_comm]
      exact List.nodup_cons.mpr ⟨moved.2, target⟩
    · exact target
  · exact target

omit [LustreFid] in
theorem receivedFor_apply (r : ChangelogRec) (input : LuFid → List ChangelogRec)
    (fids : List LuFid) (distinct : fids.Nodup) (fid : LuFid)
    : receivedFor r input fids fid = input fid ++ if fid ∈ fids then [r] else [] := by
  induction fids generalizing input with
  | nil => simp [receivedFor]
  | cons head rest ih =>
      obtain ⟨absent, distinct⟩ := List.nodup_cons.mp distinct
      refine (ih (received input head r) distinct).trans ?_
      by_cases same : fid = head
      · subst same
        simp [received_self, absent]
      · simp [received_other _ _ same, same]

theorem receivedFor_about (log : List ChangelogRec) (r : ChangelogRec)
    : receivedFor r (recordsAbout log) (scanClRecFids r) = recordsAbout (log ++ [r]) := by
  funext fid
  rw [receivedFor_apply _ _ _ (scanClRecFids_nodup r), recordsAbout, recordsAbout,
    List.filter_append, List.filter_singleton]
  simp

/-- After the records of `log` have been read, between two of them. -/
def CoalescedUpto (holds : Deliveries → σ → ScanClSeen → Prop) (sc : ScanParams)
    (log : List ChangelogRec) (s : ScanCl σ)
    : Prop :=
  Coalesced holds (recordsAbout log) (recordsAboutNone log) sc.Fits s

theorem scanClObject_coalesced (kept : KeptByDelivery sc consumer holds) {r : ChangelogRec}
    {log : List ChangelogRec} (books : CoalescedUpto holds sc log s)
    : let result := scanClObject sc env consumer s r
      result.1 = 0 → CoalescedUpto holds sc (log ++ [r]) result.2 := by
  unfold scanClObject
  dsimp only
  split
  · rename_i empty
    have none : scanClRecFids r = [] := List.isEmpty_iff.mp empty
    have after := scanClEvent_loose sc env consumer kept none books
    have about : recordsAbout (log ++ [r]) = recordsAbout log := by
      funext fid
      simp [recordsAbout, none]
    have loose : recordsAboutNone (log ++ [r]) = recordsAboutNone log ++ [r] := by
      simp [recordsAboutNone, none]
    unfold CoalescedUpto
    rw [about, loose]
    exact after
  · rename_i some
    have none : scanClRecFids r ≠ [] := fun none => some (by rw [none]; rfl)
    have after := objectLoop_coalesced sc env consumer kept (r := r) (scanClRecFids r)
      (fun _ member => member) _ _ books
    rw [receivedFor_about] at after
    have loose : recordsAboutNone (log ++ [r]) = recordsAboutNone log := by
      simp [recordsAboutNone, none]
    unfold CoalescedUpto
    rw [loose]
    exact after

theorem scanRecord_coalesced (kept : KeptByDelivery sc consumer holds)
    (coalesce : sc.coalesce = true) {r : ChangelogRec} {log : List ChangelogRec}
    (books : CoalescedUpto holds sc log s)
    : let result := scanRecord sc env consumer s r
      result.1 = 0 → CoalescedUpto holds sc (log ++ [r]) result.2 := by
  unfold scanRecord
  simp only [coalesce, if_true]
  have framed : CoalescedUpto holds sc log
      { s with slStats.ssSeen := s.slStats.ssSeen + 1 } :=
    books.frame rfl rfl (.of_eq rfl rfl rfl rfl rfl)
  have object := scanClObject_coalesced sc env consumer kept (r := r) framed
  dsimp only at object ⊢
  split
  · rename_i failed
    exact fun ok => absurd ok (by simpa using failed)
  · rename_i ok
    intro flushed
    exact (flushLoop_coalesced sc env consumer kept false _ _ rfl (object (by simpa using ok))
      flushed).1

-----------------------------------------------------------------------------------------
-- The whole scan
-----------------------------------------------------------------------------------------

/-- The records up to `sc_endrec`, or all. -/
def inRange (log : List ChangelogRec) : List ChangelogRec :=
  log.filter fun r => sc.endrec == 0 || r.crIndex ≤ sc.endrec

omit [LustreFid] in
/-- From the first record at `sc_endrec` or past it on, nothing is in range but that one. -/
theorem inRange_beyond {log : List ChangelogRec} (bounded : sc.endrec ≠ 0)
    (beyond : ∀ r ∈ log, sc.endrec < r.crIndex)
    : inRange sc log = [] := by
  apply List.filter_eq_nil_iff.mpr
  intro r member within
  simp only [bounded, beq_iff_eq, Bool.or_eq_true, decide_eq_true_eq, false_or] at within
  exact UInt64.not_lt.mpr within (beyond r member)

theorem scanLoop_coalesced (kept : KeptByDelivery sc consumer holds)
    (coalesce : sc.coalesce = true) (readEnd : Int) (log done : List ChangelogRec)
    (s : ScanCl σ) (books : CoalescedUpto holds sc done s)
    (increasing : log.Pairwise (·.crIndex < ·.crIndex))
    : let result := scanLoop sc env consumer readEnd log s
      result.2.slStopRc = 0 → CoalescedUpto holds sc (done ++ inRange sc log) result.2 := by
  induction log generalizing done s with
  | nil =>
      intro _ _
      show CoalescedUpto holds sc (done ++ []) s
      rw [List.append_nil]
      exact books
  | cons r rest ih =>
      obtain ⟨later, increasing⟩ := List.pairwise_cons.mp increasing
      have framed : CoalescedUpto holds sc done
          { s with slNow := r.seconds, trace := s.trace ++ [.read r] } :=
        books.frame rfl rfl (.of_eq rfl rfl rfl rfl rfl)
      unfold scanLoop
      dsimp only
      split
      · -- past the last record asked for
        rename_i past
        simp only [bne_iff_ne, ne_eq, Bool.and_eq_true, decide_eq_true_eq] at past
        intro _
        rw [inRange_beyond sc past.1, List.append_nil]
        · exact framed
        · intro other member
          rcases List.mem_cons.mp member with rfl | member
          · exact past.2
          · exact UInt64.lt_trans past.2 (later other member)
      rename_i inside
      have here : inRange sc (r :: rest) = r :: inRange sc rest := by
        refine List.filter_cons_of_pos ?_
        simp only [bne_iff_ne, ne_eq, Bool.and_eq_true, decide_eq_true_eq, not_and,
          UInt64.not_lt, gt_iff_lt] at inside
        by_cases unbounded : sc.endrec = 0
        · simp [unbounded]
        · simp [inside unbounded]
      have record := scanRecord_coalesced sc env consumer kept coalesce (r := r) framed
      dsimp only at record
      split
      · rename_i failed
        exact fun unstopped => absurd unstopped (by simpa using failed)
      rename_i ok
      obtain ⟨data, seen, cache, _⟩ := scanClClear_frame sc env
        (scanRecord sc env consumer
          { s with slNow := r.seconds, trace := s.trace ++ [.read r] } r).2 false
      have cleared := (record (by simpa using ok)).frame data seen cache
      split
      · -- the last record asked for
        rename_i last
        simp only [bne_iff_ne, ne_eq, Bool.and_eq_true, decide_eq_true_eq] at last
        intro _
        rw [here, inRange_beyond sc last.1]
        · exact cleared
        · exact fun other member => UInt64.lt_of_le_of_lt last.2 (later other member)
      · have joined : done ++ r :: inRange sc rest = (done ++ [r]) ++ inRange sc rest := by simp
        rw [here, joined]
        exact ih _ _ cleared increasing

/-- The deliveries of a scan that nothing stopped, as the log determines them. -/
structure Covers (log : List ChangelogRec) (sent : Deliveries) : Prop where
  runs : ∀ fid, itemsOf sent.keyed fid = recordsAbout log fid
  loose : sent.loose = (recordsAboutNone log).map fun r => ({}, [r])
  proper : ∀ x ∈ sent, x.1.Proper x.2

/-- What is delivered was made of records of the log, in their order. -/
theorem Covers.events_sublist {log : List ChangelogRec} {sent : Deliveries}
    (covers : Covers log sent) {x : ScanClObj × Bool} (member : x ∈ sent)
    : x.1.coEvents.Sublist log := by
  cases keyed : x.2 with
  | true =>
      have group : x.1.group ∈ sent.keyed :=
        List.mem_map.mpr ⟨x, List.mem_filter.mpr ⟨member, keyed⟩, rfl⟩
      have part := sublist_itemsOf group
      rw [covers.runs] at part
      exact part.trans List.filter_sublist
  | false =>
      have group : x.1.group ∈ sent.loose :=
        List.mem_map.mpr ⟨x, List.mem_filter.mpr ⟨member, by simp [keyed]⟩, rfl⟩
      rw [covers.loose] at group
      obtain ⟨r, none, same⟩ := List.mem_map.mp group
      rw [show x.1.coEvents = [r] from (congrArg Prod.snd same).symm, List.singleton_sublist]
      exact (List.mem_filter.mp none).1

/-- What comes out of the cache was made of records about it. -/
theorem Covers.about {log : List ChangelogRec} {sent : Deliveries} (covers : Covers log sent)
    {o : ScanClObj} (member : (o, true) ∈ sent) {r : ChangelogRec} (gathered : r ∈ o.coEvents)
    : o.coFid ∈ scanClRecFids r := by
  have group : o.group ∈ sent.keyed :=
    List.mem_map.mpr ⟨(o, true), List.mem_filter.mpr ⟨member, rfl⟩, rfl⟩
  have item : r ∈ itemsOf sent.keyed o.coFid := mem_itemsOf.mpr ⟨_, group, rfl, gathered⟩
  rw [covers.runs] at item
  simpa using (List.mem_filter.mp item).2

/-- A record is delivered for each of its objects. -/
theorem Covers.delivered {log : List ChangelogRec} {sent : Deliveries}
    (covers : Covers log sent) {r : ChangelogRec} (member : r ∈ log) {fid : LuFid}
    (about : fid ∈ scanClRecFids r)
    : ∃ o, (o, true) ∈ sent ∧ o.coFid = fid ∧ r ∈ o.coEvents := by
  have item : r ∈ recordsAbout log fid := List.mem_filter.mpr ⟨member, by simpa using about⟩
  rw [← covers.runs, mem_itemsOf] at item
  obtain ⟨group, inside, named, gathered⟩ := item
  obtain ⟨⟨o, keyed⟩, delivered, rfl⟩ := List.mem_map.mp inside
  obtain ⟨delivered, rfl⟩ := List.mem_filter.mp delivered
  exact ⟨o, delivered, named, gathered⟩

/-- Every record is delivered. -/
theorem Covers.exists_delivery {log : List ChangelogRec} {sent : Deliveries}
    (covers : Covers log sent) {r : ChangelogRec} (member : r ∈ log)
    : ∃ x ∈ sent, r ∈ x.1.coEvents := by
  cases fids : scanClRecFids r with
  | nil =>
      have item : ({}, [r]) ∈ sent.loose := by
        rw [covers.loose]
        exact List.mem_map.mpr ⟨r, List.mem_filter.mpr ⟨member, by simpa using fids⟩, rfl⟩
      obtain ⟨x, delivered, same⟩ := List.mem_map.mp item
      refine ⟨x, (List.mem_filter.mp delivered).1, ?_⟩
      rw [show x.1.coEvents = [r] from congrArg Prod.snd same]
      exact List.mem_cons_self
  | cons fid rest =>
      have about : fid ∈ scanClRecFids r := fids ▸ List.mem_cons_self
      obtain ⟨o, delivered, _, gathered⟩ := covers.delivered member about
      exact ⟨(o, true), delivered, gathered⟩

/-- What is delivered tells of the last of its records. -/
theorem Covers.last {log : List ChangelogRec} {sent : Deliveries} (covers : Covers log sent)
    {rel : ChangelogRec → ChangelogRec → Prop} (ordered : log.Pairwise rel)
    {x : ScanClObj × Bool} (member : x ∈ sent)
    : ∃ last ∈ x.1.coEvents, x.1.Tells last ∧ ∀ r ∈ x.1.coEvents, r = last ∨ rel r last := by
  obtain ⟨last, latest, tells⟩ := (covers.proper x member).tells
  refine ⟨last, List.mem_of_getLast? latest, tells, ?_⟩
  exact getLast?_of_pairwise (ordered.sublist (covers.events_sublist member)) latest

theorem scanFinish_covers (kept : KeptByDelivery sc consumer holds)
    (coalesce : sc.coalesce = true) (rc : Int) {log : List ChangelogRec}
    (books : s.slStopRc = 0 → CoalescedUpto holds sc log s)
    : let result := scanFinish sc env consumer rc s
      result.2.slStopRc = 0
        → ∃ sent, holds sent result.2.slData result.2.slSeen ∧ Covers log sent := by
  -- the last clear changes nothing that matters here
  have cleared (read : Int) (mid : ScanCl σ)
      (books : mid.slStopRc = 0 → ∃ sent, holds sent mid.slData mid.slSeen ∧ Covers log sent)
      : let after := if read ≥ 0 then scanClClear sc env mid true else mid
        after.slStopRc = 0
          → ∃ sent, holds sent after.slData after.slSeen ∧ Covers log sent := by
    dsimp only
    split
    · obtain ⟨data, seen, _, stopRc, _⟩ := scanClClear_frame sc env mid true
      rw [data, seen, stopRc]
      exact books
    · exact books
  refine cleared _ _ ?_
  split
  · rename_i unstopped
    rw [Bool.and_eq_true, beq_iff_eq] at unstopped
    have flushed := flushLoop_coalesced sc env consumer kept true _ _ rfl (books unstopped.1)
    dsimp only at flushed ⊢
    split
    · rename_i failed
      exact fun unstopped => absurd unstopped (by simpa using failed)
    · rename_i ok
      intro _
      obtain ⟨⟨sent, after⟩, empty⟩ := flushed (by simpa [scanClFlush] using ok)
      refine ⟨sent, after.holds, fun fid => ?_, after.loose, after.proper⟩
      have grouping := after.grouping
      rw [empty rfl] at grouping
      exact grouping.finished fid
  · rename_i stopped
    intro unstopped
    simp [unstopped, coalesce] at stopped

/-- The rule for a coalescing scan: what every delivery keeps holds at the end of a scan that
nothing stopped, for deliveries that cover the records in range.
-/
theorem llapiScanChangelog_covers (kept : KeptByDelivery sc consumer holds)
    (coalesce : sc.coalesce = true) (starts : Starts sc env) (log : List ChangelogRec)
    (readEnd : Int) (data : σ) (first : holds [] data {})
    (increasing : log.Pairwise (·.crIndex < ·.crIndex))
    : let result := llapiScanChangelog sc env consumer log readEnd data
      result.2.slStopRc = 0
        → ∃ sent, holds sent result.2.slData result.2.slSeen
          ∧ Covers (inRange sc log) sent := by
  rw [llapiScanChangelog_of_starts consumer starts]
  have begin : CoalescedUpto holds sc [] ({ slData := data, allocs := 1 } : ScanCl σ) :=
    ⟨[], first, .empty rfl rfl rfl, .start, rfl, by simp, by simp [ScanCl.held],
      fun _ => Nat.zero_le _⟩
  refine scanFinish_covers sc env consumer kept coalesce _ fun unstopped => ?_
  simpa using scanLoop_coalesced sc env consumer kept coalesce readEnd log [] _ begin increasing
    unstopped

end Books

/-- The filter never fails and the callback takes everything. -/
structure Consumer.Willing (consumer : Consumer σ) : Prop where
  passes : ∀ rec data, 0 ≤ (consumer.verdict rec data).1
  takes : ∀ rec data, (consumer.cb rec data).1 = 0

omit [LustreFid] in
/-- Nothing stops a scan of a willing consumer. -/
theorem Consumer.Willing.never {env : ScanEnv} {consumer : Consumer σ}
    (willing : consumer.Willing) (memory : ∀ n, env.memory n = true)
    : Stops env consumer fun _ => False := by
  refine ⟨fun rec data fails => ?_, fun rec data fails => ?_, fun n fails => ?_⟩
  · exact Int.not_lt.mpr (willing.passes rec data) fails
  · exact fails (willing.takes rec data)
  · exact absurd (memory n) (by simp [fails])

/-- The runs of an object, as they were delivered. -/
def Deliveries.runs (sent : Deliveries) (fid : LuFid) : List (List ChangelogRec) :=
  (sent.keyed.filter (·.1 = fid)).map Prod.snd

section Standstill

variable (sc : ScanParams) (env : ScanEnv) (consumer : Consumer σ)
  (largest : sc.slMaxCached = 0xffffffff) (memory : ∀ n, env.memory n = true)

include largest memory

end Standstill

end Scans

end LfuScan.Changelog

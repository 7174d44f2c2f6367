import LfuScan.Changelog.Cache

/-! A clear never outruns the consumer: what may be cleared is inferred from the last index
accepted and from the oldest record a cached object was made of. Every record read is
consumed, gathered in the cache, or pending in the call that is at work on it.
-/

namespace LfuScan.Changelog

open LfuScan.Lustre LfuScan.Foundations

variable {σ : Type}

/-- The object was taken, rejected or dropped together with the record. -/
def Consumed (trace : List ClEvent) (fid : LuFid) (r : ChangelogRec) : Prop :=
  ∃ events how, .settled fid events how ∈ trace ∧ r ∈ events

/-- Some object was settled together with a record of this index. -/
def SettledAt (trace : List ClEvent) (index : UInt64) : Prop :=
  ∃ fid events how, .settled fid events how ∈ trace ∧ ∃ r ∈ events, r.crIndex = index

/-- Memory never ran out for an object of a record of which another object was settled. -/
def MemoryHolds (trace : List ClEvent) : Prop :=
  ∀ fid index, .noMemory fid index ∈ trace → ¬SettledAt trace index

theorem Consumed.append {trace : List ClEvent} {fid : LuFid} {r : ChangelogRec}
    (consumed : Consumed trace fid r) (extra : List ClEvent)
    : Consumed (trace ++ extra) fid r := by
  obtain ⟨events, how, settled, gathered⟩ := consumed
  exact ⟨events, how, List.mem_append_left _ settled, gathered⟩

theorem SettledAt.append {trace : List ClEvent} {index : UInt64}
    (settled : SettledAt trace index) (extra : List ClEvent)
    : SettledAt (trace ++ extra) index := by
  obtain ⟨fid, events, how, member, gathered⟩ := settled
  exact ⟨fid, events, how, List.mem_append_left _ member, gathered⟩

section Scans

variable [LustreFid]

/-- The objects a record is delivered for: those it is about, or one with no FID. -/
def ChangelogRec.objects (r : ChangelogRec) : List LuFid :=
  if (scanClRecFids r).isEmpty then [{}] else scanClRecFids r

/-- At every clear, all objects of all records read up to its index are consumed. -/
def ClearSafe (trace : List ClEvent) : Prop :=
  ∀ before upto after, trace = before ++ .clear upto :: after →
    ∀ r, .read r ∈ before → r.crIndex ≤ upto → ∀ fid ∈ r.objects, Consumed before fid r

theorem clearSafe_nil : ClearSafe [] := by
  intro before upto after split
  simp at split

/-- What a new event has to satisfy: a clear its own condition, anything else nothing. -/
theorem ClearSafe.snoc {trace : List ClEvent} (safe : ClearSafe trace) (event : ClEvent)
    (clears : ∀ upto, event = .clear upto → ∀ r, .read r ∈ trace → r.crIndex ≤ upto →
      ∀ fid ∈ r.objects, Consumed trace fid r)
    : ClearSafe (trace ++ [event]) := by
  intro before upto after split
  rcases List.eq_nil_or_concat after with rfl | ⟨rest, last, rfl⟩
  · obtain ⟨rfl, same⟩ := List.append_inj' split rfl
    exact clears upto (by simpa using same)
  · rw [List.concat_eq_append, ← List.cons_append, ← List.append_assoc] at split
    obtain ⟨rfl, -⟩ := List.append_inj' split rfl
    exact safe before upto rest rfl

theorem ClearSafe.append {trace : List ClEvent} (safe : ClearSafe trace)
    (extra : List ClEvent) (clearless : ∀ event ∈ extra, ∀ upto, event ≠ .clear upto)
    : ClearSafe (trace ++ extra) := by
  induction extra generalizing trace with
  | nil => simpa using safe
  | cons event rest ih =>
      have one := safe.snoc event (fun upto same =>
        absurd same (clearless event List.mem_cons_self upto))
      simpa using ih one (fun other member => clearless other (List.mem_cons_of_mem _ member))

/-- What a delivery does to the state, whatever the consumer says: an object refused leaves
the high-water mark where it was.
-/
structure Delivered (o : ScanClObj) (s : ScanCl σ) (rc : Int) (after : ScanCl σ)
    : Prop where
  cache : SameCache s after
  trace : ∃ extra, after.trace = s.trace ++ extra
    ∧ ∀ event ∈ extra, ∃ how, event = .settled o.coFid o.coEvents how
  refused : rc ≠ 0 → after.slAccepted = s.slAccepted
  accepted : rc = 0 →
    (∃ how, .settled o.coFid o.coEvents how ∈ after.trace)
    ∧ (after.slAccepted = s.slAccepted ∨ after.slAccepted = o.coIndex)

theorem scanClAccept_cache (s : ScanCl σ) (index : UInt64)
    : SameCache s (scanClAccept s index) := by
  unfold scanClAccept
  split <;> exact .of_eq rfl rfl rfl rfl rfl

theorem scanClAccept_trace (s : ScanCl σ) (index : UInt64)
    : (scanClAccept s index).trace = s.trace := by
  unfold scanClAccept
  split <;> rfl

theorem scanClAccept_accepted (s : ScanCl σ) (index : UInt64)
    : (scanClAccept s index).slAccepted = s.slAccepted
      ∨ (scanClAccept s index).slAccepted = index := by
  unfold scanClAccept
  split
  · exact Or.inr rfl
  · exact Or.inl rfl

/-- A settled object that is accepted. -/
theorem Delivered.settle (o : ScanClObj) (how : Settlement) {s mid : ScanCl σ}
    (cache : SameCache s mid)
    (trace : mid.trace = s.trace ++ [.settled o.coFid o.coEvents how])
    (accepted : mid.slAccepted = s.slAccepted)
    : Delivered o s 0 (scanClAccept mid o.coIndex) where
  cache := cache.trans (scanClAccept_cache mid o.coIndex)
  trace := ⟨_, (scanClAccept_trace _ _).trans trace, by simp⟩
  refused := fun failed => absurd rfl failed
  accepted := fun _ => by
    refine ⟨⟨how, by simp [scanClAccept_trace, trace]⟩, ?_⟩
    rw [← accepted]
    exact scanClAccept_accepted mid o.coIndex

/-- A refused object, with whatever was recorded about it. -/
theorem Delivered.refuse (o : ScanClObj) (extra : List ClEvent) {rc : Int}
    {s after : ScanCl σ} (failed : rc ≠ 0) (cache : SameCache s after)
    (trace : after.trace = s.trace ++ extra)
    (settled : ∀ event ∈ extra, ∃ how, event = .settled o.coFid o.coEvents how)
    (accepted : after.slAccepted = s.slAccepted)
    : Delivered o s rc after where
  cache := cache
  trace := ⟨extra, trace, settled⟩
  refused := fun _ => accepted
  accepted := fun ok => absurd ok failed

section Steps

variable (sc : ScanParams) (env : ScanEnv) (consumer : Consumer σ)

/-- Asking the filter changes the consumer's data only. -/
theorem Consumer.ask_state (rec_ : LlapiScanRec) (s : ScanCl σ)
    : ∃ data, (consumer.ask rec_ s).2 = { s with slData := data } := by
  unfold Consumer.ask
  split
  · exact ⟨s.slData, rfl⟩
  · exact ⟨_, rfl⟩

theorem scanClDeliver_effect (s : ScanCl σ) (o : ScanClObj) (keyed : Bool)
    : Delivered o s (scanClDeliver sc env consumer s o keyed).1
        (scanClDeliver sc env consumer s o keyed).2 := by
  obtain ⟨data, asked⟩ := consumer.ask_state (scanClRecEvent o) s
  unfold scanClDeliver
  simp only [asked]
  split
  · exact Delivered.settle o .filtered (.of_eq rfl rfl rfl rfl rfl) rfl rfl
  split
  · exact Delivered.refuse o [] (by omega) (.of_eq rfl rfl rfl rfl rfl) (by simp) (by simp) rfl
  split
  · exact Delivered.settle o .repeated (.of_eq rfl rfl rfl rfl rfl) rfl rfl
  split
  · rename_i failed
    exact Delivered.refuse o [] (by simpa using failed) (.of_eq rfl rfl rfl rfl rfl) (by simp)
      (by simp) rfl
  split
  · have added := s.slSeen.add_exit env.memory s.allocs o.coFid
    split
    · rename_i failed
      exact Delivered.refuse o _ (by omega) ⟨rfl, rfl, rfl, rfl, added.more⟩ rfl (by simp) rfl
    · exact Delivered.settle o .taken ⟨rfl, rfl, rfl, rfl, added.more⟩ rfl rfl
  · exact Delivered.settle o .taken (.of_eq rfl rfl rfl rfl rfl) rfl rfl

end Steps

-----------------------------------------------------------------------------------------
-- The books
-----------------------------------------------------------------------------------------

/-- The record is one of those a cached object was made of. -/
def Gathered (aged : List ScanClObj) (fid : LuFid) (r : ChangelogRec) : Prop :=
  ∃ o ∈ aged, o.coFid = fid ∧ r ∈ o.coEvents

/-- A cached object: `co_first` is not above any of its records, `co_index` is the index of
one, and none is above `k`.
-/
structure ScanClObj.Held (o : ScanClObj) (k : UInt64) : Prop where
  positive : 0 < o.coFirst
  oldest : ∀ r ∈ o.coEvents, o.coFirst ≤ r.crIndex
  latest : ∃ r ∈ o.coEvents, r.crIndex = o.coIndex
  bound : o.coIndex ≤ k

omit [LustreFid] in
theorem ScanClObj.Held.first_le {o : ScanClObj} {k : UInt64} (held : o.Held k)
    : o.coFirst ≤ k := by
  obtain ⟨r, gathered, index⟩ := held.latest
  exact UInt64.le_trans (index ▸ held.oldest r gathered) held.bound

theorem Absorbed.gathers {o next : ScanClObj} {r : ChangelogRec} {fid : LuFid}
    (absorbed : Absorbed o r fid next)
    : r ∈ next.coEvents := by
  simp [absorbed.coEvents]

theorem ScanClObj.Held.absorb {o next : ScanClObj} {r : ChangelogRec} {fid : LuFid}
    (held : o.Held r.crIndex) (absorbed : Absorbed o r fid next)
    : next.Held r.crIndex where
  positive := absorbed.coFirst ▸ held.positive
  oldest := fun e member => by
    rw [absorbed.coFirst]
    rw [absorbed.coEvents] at member
    rcases List.mem_append.mp member with earlier | now
    · exact held.oldest e earlier
    · obtain rfl : e = r := by simpa using now
      exact held.first_le
  latest := ⟨r, absorbed.gathers, absorbed.coIndex.symm⟩
  bound := UInt64.le_of_eq absorbed.coIndex

/-- A new object, whose first record is the one it was made of. -/
theorem Absorbed.fresh {made : ScanClObj} {r : ChangelogRec} {fid : LuFid}
    (absorbed : Absorbed { coFirst := r.crIndex } r fid made) (positive : 0 < r.crIndex)
    : made.Held r.crIndex where
  positive := absorbed.coFirst ▸ positive
  oldest := fun e member => by
    have events : made.coEvents = [r] := absorbed.coEvents
    obtain rfl : e = r := by simpa [events] using member
    exact UInt64.le_of_eq absorbed.coFirst
  latest := ⟨r, absorbed.gathers, absorbed.coIndex.symm⟩
  bound := UInt64.le_of_eq absorbed.coIndex

/-- Where every record read stands, once the scan has got to index `k` and some objects are
still pending. A high-water mark that has reached `k` got there with a record of index `k`.
-/
structure Books (k : UInt64) (pending : ChangelogRec → LuFid → Prop) (s : ScanCl σ)
    : Prop where
  step : InStep s
  safe : ClearSafe s.trace
  accounted : ∀ r, .read r ∈ s.trace → ∀ fid ∈ r.objects,
    Consumed s.trace fid r ∨ Gathered s.held fid r ∨ pending r fid
  cached : ∀ o ∈ s.held, o.Held k
  accepted : s.slAccepted ≤ k
  reached : 0 < k → s.slAccepted = k → SettledAt s.trace k

/-- Nothing is pending between records. -/
def NoPending : ChangelogRec → LuFid → Prop := fun _ _ => False

/-- The objects of the record at work that have not had their turn. -/
def Pending (r : ChangelogRec) (todo : List LuFid) : ChangelogRec → LuFid → Prop :=
  fun other fid => other = r ∧ fid ∈ todo

namespace Books

variable {k : UInt64} {pending : ChangelogRec → LuFid → Prop} {s : ScanCl σ}

theorem frame (books : Books k pending s) {after : ScanCl σ}
    (trace : after.trace = s.trace) (cache : SameCache s after)
    (accepted : after.slAccepted = s.slAccepted)
    : Books k pending after where
  step := books.step.keep cache
  safe := trace ▸ books.safe
  accounted := by rw [trace, cache.held]; exact books.accounted
  cached := by rw [cache.held]; exact books.cached
  accepted := by rw [accepted]; exact books.accepted
  reached := by rw [trace, accepted]; exact books.reached

theorem raise (books : Books k pending s) {next : UInt64} (above : k < next)
    : Books next pending s where
  step := books.step
  safe := books.safe
  accounted := books.accounted
  cached := fun o member =>
    let held := books.cached o member
    ⟨held.positive, held.oldest, held.latest,
      UInt64.le_trans held.bound (UInt64.le_of_lt above)⟩
  accepted := UInt64.le_trans books.accepted (UInt64.le_of_lt above)
  reached := fun _ same =>
    absurd (UInt64.lt_of_le_of_lt books.accepted above) (same ▸ UInt64.lt_irrefl _)

theorem resolve (books : Books k pending s) {next : ChangelogRec → LuFid → Prop}
    (done : ∀ r fid, pending r fid → Consumed s.trace fid r ∨ Gathered s.held fid r
      ∨ next r fid)
    : Books k next s where
  step := books.step
  safe := books.safe
  accounted := fun r read fid object => by
    rcases books.accounted r read fid object with consumed | gathered | waiting
    · exact Or.inl consumed
    · exact Or.inr (Or.inl gathered)
    · exact done r fid waiting
  cached := books.cached
  accepted := books.accepted
  reached := books.reached

theorem settled {r : ChangelogRec} (books : Books k (Pending r []) s)
    : Books k NoPending s :=
  books.resolve (fun _ _ waiting => absurd waiting.2 List.not_mem_nil)

/-- A record is read: all of its objects are pending. -/
theorem read (books : Books k NoPending s) (r : ChangelogRec) {after : ScanCl σ}
    (trace : after.trace = s.trace ++ [.read r]) (cache : SameCache s after)
    (accepted : after.slAccepted = s.slAccepted)
    : Books k (Pending r r.objects) after where
  step := books.step.keep cache
  safe := by
    rw [trace]
    exact books.safe.append _ (by simp)
  accounted := fun other read fid object => by
    rw [trace] at read ⊢
    rw [cache.held]
    rcases List.mem_append.mp read with earlier | now
    · rcases books.accounted other earlier fid object with consumed | gathered | waiting
      · exact Or.inl (consumed.append _)
      · exact Or.inr (Or.inl gathered)
      · exact waiting.elim
    · obtain rfl : other = r := by simpa using now
      exact Or.inr (Or.inr ⟨rfl, object⟩)
  cached := by rw [cache.held]; exact books.cached
  accepted := by rw [accepted]; exact books.accepted
  reached := fun positive same =>
    trace ▸ (books.reached positive (accepted ▸ same)).append _

/-- More of the trace that is neither a record read nor a clear. -/
theorem extend (books : Books k pending s) (extra : List ClEvent) {after : ScanCl σ}
    (quiet : ∀ event ∈ extra, (∀ r, event ≠ .read r) ∧ ∀ upto, event ≠ .clear upto)
    (trace : after.trace = s.trace ++ extra) (cache : SameCache s after)
    (accepted : after.slAccepted ≤ k)
    (reached : 0 < k → after.slAccepted = k → SettledAt after.trace k)
    : Books k pending after where
  step := books.step.keep cache
  safe := by
    rw [trace]
    exact books.safe.append _ (fun event member => (quiet event member).2)
  accounted := fun r read fid object => by
    rw [trace] at read ⊢
    rw [cache.held]
    rcases List.mem_append.mp read with earlier | now
    · exact (books.accounted r earlier fid object).imp_left (·.append _)
    · exact absurd rfl ((quiet _ now).1 r)
  cached := by rw [cache.held]; exact books.cached
  accepted := accepted
  reached := reached

theorem delivered (books : Books k pending s) {o : ScanClObj} {rc : Int}
    {after : ScanCl σ} (latest : ∃ r ∈ o.coEvents, r.crIndex = o.coIndex)
    (bound : o.coIndex ≤ k) (effect : Delivered o s rc after)
    : Books k pending after := by
  obtain ⟨extra, trace, settled⟩ := effect.trace
  have same : after.slAccepted = s.slAccepted →
      after.slAccepted ≤ k
      ∧ (0 < k → after.slAccepted = k → SettledAt after.trace k) := by
    intro same
    rw [same, trace]
    exact ⟨books.accepted, fun positive top => (books.reached positive top).append _⟩
  have mark : after.slAccepted ≤ k
      ∧ (0 < k → after.slAccepted = k → SettledAt after.trace k) := by
    by_cases ok : rc = 0
    · obtain ⟨⟨how, member⟩, unchanged | moved⟩ := effect.accepted ok
      · exact same unchanged
      · rw [moved]
        refine ⟨bound, fun _ top => ?_⟩
        obtain ⟨r, gathered, index⟩ := latest
        exact ⟨o.coFid, o.coEvents, how, member, r, gathered, index.trans top⟩
    · exact same (effect.refused ok)
  refine books.extend extra ?_ trace effect.cache mark.1 mark.2
  intro event member
  obtain ⟨how, rfl⟩ := settled event member
  simp

/-- An object leaves the cache once it is settled. -/
theorem unlink (books : Books k pending s) {p : ObjPtr} {front back : List ObjPtr}
    (aged : s.slAged = front ++ p :: back)
    (settled : ∃ how, .settled (s.objs p).coFid (s.objs p).coEvents how ∈ s.trace)
    : Books k pending (scanClUnlink s p) where
  step := books.step.unlink aged
  safe := books.safe
  accounted := fun r read fid object => by
    rcases books.accounted r read fid object with
      consumed | ⟨x, cached, same, gathered⟩ | waiting
    · exact Or.inl consumed
    · rw [ScanCl.held, aged, List.map_append, List.map_cons, List.mem_append, List.mem_cons]
        at cached
      rcases cached with front | rfl | back
      · exact Or.inr (Or.inl ⟨x, books.step.unlink_held aged ▸ List.mem_append_left _ front,
          same, gathered⟩)
      · obtain ⟨how, member⟩ := settled
        exact Or.inl ⟨_, how, same ▸ member, gathered⟩
      · exact Or.inr (Or.inl ⟨x, books.step.unlink_held aged ▸ List.mem_append_right _ back,
          same, gathered⟩)
    · exact Or.inr (Or.inr waiting)
  cached := fun x member => books.cached x (by
    rw [books.step.unlink_held aged] at member
    rw [ScanCl.held, aged, List.map_append]
    exact (List.mem_append.mp member).elim (List.mem_append_left _)
      fun back => List.mem_append_right _ (List.mem_cons_of_mem _ back))
  accepted := books.accepted
  reached := books.reached

/-- An object gathers the record at work, in the place of what it was before or as a new
one, and is not pending any more.
-/
theorem gather {r : ChangelogRec} {fid : LuFid} {rest : List LuFid} {o : ScanClObj}
    (others : List ScanClObj) (books : Books r.crIndex (Pending r (fid :: rest)) s)
    (same : o.coFid = fid) (gathers : r ∈ o.coEvents) (held : o.Held r.crIndex)
    (kept : ∀ x ∈ s.held, x ∈ others ∨ x.coFid = fid ∧ ∀ e ∈ x.coEvents, e ∈ o.coEvents)
    (fewer : ∀ x ∈ others, x ∈ s.held) {after : ScanCl σ} (step : InStep after)
    (trace : after.trace = s.trace) (aged : after.held = others ++ [o])
    (accepted : after.slAccepted = s.slAccepted)
    : Books r.crIndex (Pending r rest) after where
  step := step
  safe := trace ▸ books.safe
  accounted := fun other read object member => by
    rw [trace] at read ⊢
    rw [aged]
    rcases books.accounted other read object member with
      consumed | ⟨x, cached, named, gathered⟩ | ⟨rfl, waiting⟩
    · exact Or.inl consumed
    · rcases kept x cached with stays | ⟨this, moved⟩
      · exact Or.inr (Or.inl ⟨x, List.mem_append_left _ stays, named, gathered⟩)
      · refine Or.inr (Or.inl ⟨o, by simp, ?_, moved other gathered⟩)
        rw [same, ← this, named]
    · rcases List.mem_cons.mp waiting with rfl | later
      · exact Or.inr (Or.inl ⟨o, by simp, same, gathers⟩)
      · exact Or.inr (Or.inr ⟨rfl, later⟩)
  cached := fun x member => by
    rw [aged] at member
    rcases List.mem_append.mp member with stays | new
    · exact books.cached x (fewer x stays)
    · obtain rfl : x = o := by simpa using new
      exact held
  accepted := by rw [accepted]; exact books.accepted
  reached := by rw [trace, accepted]; exact books.reached

end Books

-----------------------------------------------------------------------------------------
-- Clearing
-----------------------------------------------------------------------------------------

/-- A clear cannot reach index `k`: the high-water mark has not, or the cache holds it back. -/
def Blocked (k : UInt64) (s : ScanCl σ) : Prop :=
  s.slAccepted < k ∨ ∃ o ∈ s.held, o.coFirst ≤ k

omit [LustreFid] in
/-- The running minimum of `scan_cl_held_first`, where no `co_first` is 0. -/
theorem heldFirst_fold (aged : List ScanClObj) (first : UInt64)
    (positive : ∀ o ∈ aged, 0 < o.coFirst)
    : let held :=
        aged.foldl
          (fun first o => if first == 0 || o.coFirst < first then o.coFirst else first) first
      (first ≠ 0 → held ≠ 0 ∧ held ≤ first)
      ∧ ∀ o ∈ aged, held ≠ 0 ∧ held ≤ o.coFirst := by
  induction aged generalizing first with
  | nil => simp
  | cons head rest ih =>
      have above : head.coFirst ≠ 0 :=
        fun zero => UInt64.lt_irrefl 0 (zero ▸ positive head List.mem_cons_self)
      have later := fun next => ih next (fun o member => positive o (List.mem_cons_of_mem _ member))
      rw [List.foldl_cons]
      split
      · rename_i smaller
        obtain ⟨bound, others⟩ := later head.coFirst
        obtain ⟨nonzero, below⟩ := bound above
        refine ⟨fun given => ⟨nonzero, ?_⟩, ?_⟩
        · have less : head.coFirst < first := by simpa [given] using smaller
          exact UInt64.le_trans below (UInt64.le_of_lt less)
        · intro o member
          rcases List.mem_cons.mp member with rfl | member
          · exact ⟨nonzero, below⟩
          · exact others o member
      · rename_i notSmaller
        obtain ⟨bound, others⟩ := later first
        have kept : first ≠ 0 ∧ first ≤ head.coFirst := by simpa using notSmaller
        obtain ⟨nonzero, below⟩ := bound kept.1
        refine ⟨fun _ => ⟨nonzero, below⟩, ?_⟩
        intro o member
        rcases List.mem_cons.mp member with rfl | member
        · exact ⟨nonzero, UInt64.le_trans below kept.2⟩
        · exact others o member

theorem scanClHeldFirst_le (s : ScanCl σ) (positive : ∀ o ∈ s.held, 0 < o.coFirst)
    {o : ScanClObj} (member : o ∈ s.held)
    : scanClHeldFirst s ≠ 0 ∧ scanClHeldFirst s ≤ o.coFirst := by
  have first : scanClHeldFirst s
      = s.held.foldl
          (fun first o => if first == 0 || o.coFirst < first then o.coFirst else first) 0 := by
    rw [ScanCl.held, List.foldl_map]
    rfl
  rw [first]
  exact (heldFirst_fold s.held 0 positive).2 o member

section Clearing

variable (sc : ScanParams) (env : ScanEnv)

/-- What a clear does: at most one event, of an index that is accepted and below the first
record of everything cached.
-/
structure Cleared (s after : ScanCl σ) : Prop where
  cache : SameCache s after
  accepted : after.slAccepted = s.slAccepted
  trace : after.trace = s.trace
    ∨ ∃ upto, after.trace = s.trace ++ [.clear upto]
      ∧ upto ≤ s.slAccepted
      ∧ ((∀ o ∈ s.held, 0 < o.coFirst) → ∀ o, o ∈ s.held → upto < o.coFirst)

omit [LustreFid] in
theorem pred_toNat {n : UInt64} (nonzero : n ≠ 0)
    : n.toNat ≠ 0 ∧ (n - 1).toNat = n.toNat - 1 := by
  have large : n.toNat ≠ 0 := fun zero => nonzero (UInt64.toNat_inj.mp zero)
  have one : (1 : UInt64) ≤ n := by
    rw [UInt64.le_iff_toNat_le]
    exact Nat.one_le_iff_ne_zero.mpr large
  exact ⟨large, UInt64.toNat_sub_of_le _ _ one⟩

theorem clearUpto_le (s : ScanCl σ) : clearUpto s ≤ s.slAccepted := by
  unfold clearUpto
  dsimp only
  split
  · rename_i lower
    simp only [Bool.and_eq_true, decide_eq_true_eq] at lower
    exact UInt64.le_of_lt lower.2
  · exact UInt64.le_refl _

theorem clearUpto_lt (s : ScanCl σ) (positive : ∀ o ∈ s.held, 0 < o.coFirst)
    {o : ScanClObj} (member : o ∈ s.held)
    : clearUpto s < o.coFirst := by
  obtain ⟨nonzero, below⟩ := scanClHeldFirst_le s positive member
  obtain ⟨large, pred⟩ := pred_toNat nonzero
  have before : scanClHeldFirst s - 1 < o.coFirst := by
    rw [UInt64.le_iff_toNat_le] at below
    rw [UInt64.lt_iff_toNat_lt, pred]
    omega
  unfold clearUpto
  dsimp only
  split
  · exact before
  · rename_i high
    have high : s.slAccepted ≤ scanClHeldFirst s - 1 := by simpa [nonzero] using high
    exact UInt64.lt_of_le_of_lt high before

theorem scanClClear_effect (s : ScanCl σ) (final : Bool)
    : Cleared s (scanClClear sc env s final) := by
  unfold scanClClear
  dsimp only
  split
  · exact ⟨.of_eq rfl rfl rfl rfl rfl, rfl, Or.inl rfl⟩
  split
  · exact ⟨.of_eq rfl rfl rfl rfl rfl, rfl, Or.inl rfl⟩
  split
  · exact ⟨.of_eq rfl rfl rfl rfl rfl, rfl, Or.inl rfl⟩
  split
  · exact ⟨.of_eq rfl rfl rfl rfl rfl, rfl, Or.inl rfl⟩
  split <;>
    exact ⟨.of_eq rfl rfl rfl rfl rfl, rfl,
      Or.inr ⟨clearUpto s, rfl, clearUpto_le s, fun positive _ => clearUpto_lt s positive⟩⟩

/-- Clearing keeps the books if nothing pending is within reach. -/
theorem Books.clear {k : UInt64} {pending : ChangelogRec → LuFid → Prop} {s after : ScanCl σ}
    (books : Books k pending s) (blocked : ∀ r fid, pending r fid → Blocked r.crIndex s)
    (effect : Cleared s after)
    : Books k pending after := by
  rcases effect.trace with quiet | ⟨upto, trace, within, below⟩
  · exact books.frame quiet effect.cache effect.accepted
  have below := below (fun o member => (books.cached o member).positive)
  refine
    {
      step := books.step.keep effect.cache
      safe := ?_
      accounted := ?_
      cached := by rw [effect.cache.held]; exact books.cached
      accepted := by rw [effect.accepted]; exact books.accepted
      reached := fun positive top =>
        trace ▸ (books.reached positive (effect.accepted ▸ top)).append _
    }
  · rw [trace]
    refine books.safe.snoc _ ?_
    intro index same r read covered fid object
    obtain rfl : upto = index := by simpa using same
    rcases books.accounted r read fid object with
      consumed | ⟨o, cached, -, gathered⟩ | waiting
    · exact consumed
    · have first := (books.cached o cached).oldest r gathered
      exact absurd (UInt64.lt_of_lt_of_le (below o cached) (UInt64.le_trans first covered))
        (UInt64.lt_irrefl _)
    · rcases blocked r fid waiting with behind | ⟨o, cached, first⟩
      · exact absurd (UInt64.lt_of_le_of_lt (UInt64.le_trans covered within) behind)
          (UInt64.lt_irrefl _)
      · exact absurd (UInt64.lt_of_lt_of_le (below o cached) (UInt64.le_trans first covered))
          (UInt64.lt_irrefl _)
  · intro r read fid object
    rw [trace] at read ⊢
    rw [effect.cache.held]
    have earlier : .read r ∈ s.trace := by simpa using read
    exact (books.accounted r earlier fid object).imp_left (·.append _)

end Clearing

-----------------------------------------------------------------------------------------
-- One record
-----------------------------------------------------------------------------------------

/-- The scan stopped in the middle of a record: a clear cannot reach it, unless memory ran
out for one of its objects.
-/
def Stopped (r : ChangelogRec) (s : ScanCl σ) : Prop :=
  ∃ todo, Books r.crIndex (Pending r todo) s
    ∧ (Blocked r.crIndex s ∨ ∃ fid, .noMemory fid r.crIndex ∈ s.trace)

/-- What a call that works on a record leaves: the objects still to do, or a stop. -/
structure Outcome (r : ChangelogRec) (todo : List LuFid) (rc : Int) (s : ScanCl σ)
    : Prop where
  ok : rc = 0 → Books r.crIndex (Pending r todo) s
  stop : rc ≠ 0 → Stopped r s

theorem Books.blocked {k : UInt64} {pending : ChangelogRec → LuFid → Prop} {s : ScanCl σ}
    (books : Books k pending s) {o : ScanClObj} (cached : o ∈ s.held)
    : Blocked k s :=
  Or.inr ⟨o, cached, (books.cached o cached).first_le⟩

section Record

variable (sc : ScanParams) (env : ScanEnv) (consumer : Consumer σ)

/-- A cached object leaves the cache if it was accepted. -/
theorem Books.release {k : UInt64} {pending : ChangelogRec → LuFid → Prop} {s : ScanCl σ}
    (books : Books k pending s) {p : ObjPtr} {front back : List ObjPtr}
    (aged : s.slAged = front ++ p :: back)
    : let result := leave sc env consumer s p
      Books k pending result.2 ∧ (result.1 ≠ 0 → Blocked k result.2) := by
  have effect : Delivered (s.objs p) s _ _ :=
    scanClDeliver_effect sc env consumer s (s.objs p) true
  have cached : s.objs p ∈ s.held :=
    List.mem_map_of_mem (by rw [aged]; exact List.mem_append_right _ List.mem_cons_self)
  have held := books.cached _ cached
  have after := books.delivered held.latest held.bound effect
  rcases leave_exit sc env consumer s p with ⟨ok, ends⟩ | ⟨failed, ends⟩
  · rw [ends]
    refine ⟨after.unlink (effect.cache.slAged.trans aged) ?_, fun failed => absurd rfl failed⟩
    rw [effect.cache.objs]
    exact (effect.accepted ok).1
  · rw [ends]
    exact ⟨after, fun _ => after.blocked (effect.cache.held ▸ cached)⟩

/-- What is left of the cache once its oldest object has been released. -/
theorem leave_aged {s : ScanCl σ} {p : ObjPtr} {rest : List ObjPtr} (aged : s.slAged = p :: rest)
    (released : (leave sc env consumer s p).1 = 0)
    : (leave sc env consumer s p).2.slAged = rest := by
  rcases leave_exit sc env consumer s p with ⟨_, ends⟩ | ⟨failed, ends⟩
  · have same := (scanClDeliver_effect sc env consumer s (s.objs p) true).cache.slAged
    rw [ends, scanClUnlink, same, aged, List.erase_cons_head]
  · exact absurd released (ends ▸ failed)

theorem flushLoop_books (all : Bool) {k : UInt64} {pending : ChangelogRec → LuFid → Prop}
    (aged : List ObjPtr) (s : ScanCl σ) (here : s.slAged = aged) (books : Books k pending s)
    : let result := flushLoop sc env consumer all aged s
      Books k pending result.2 ∧ (result.1 ≠ 0 → Blocked k result.2) := by
  induction aged generalizing s with
  | nil => exact ⟨books, fun failed => absurd rfl failed⟩
  | cons p rest ih =>
      rw [flushLoop_cons]
      split
      · exact ⟨books, fun failed => absurd rfl failed⟩
      · have oldest : s.slAged = [] ++ p :: rest := here
        have released := books.release sc env consumer oldest
        split
        · exact released
        · rename_i ok
          exact ih _ (leave_aged sc env consumer here (by simpa using ok)) released.1

/-- The same while a record is at work. -/
theorem Books.outcome {r : ChangelogRec} {todo : List LuFid} {s : ScanCl σ}
    (books : Books r.crIndex (Pending r todo) s) {p : ObjPtr} {front back : List ObjPtr}
    (aged : s.slAged = front ++ p :: back)
    : Outcome r todo (leave sc env consumer s p).1 (leave sc env consumer s p).2 := by
  obtain ⟨after, blocked⟩ := books.release sc env consumer aged
  exact ⟨fun _ => after, fun failed => ⟨todo, after, Or.inl (blocked failed)⟩⟩

/-- Event mode: each object that is delivered is consumed with the record. -/
theorem eventLoop_books (r : ChangelogRec) (fids : List (Option LuFid)) (s : ScanCl σ)
    (books : Books r.crIndex (Pending r (fids.map (·.getD {}))) s)
    : let result := eventLoop sc env consumer r fids s
      (result.1 = 0 → Books r.crIndex (Pending r []) result.2)
      ∧ ∃ todo, Books r.crIndex (Pending r todo) result.2 := by
  induction fids generalizing s with
  | nil => exact ⟨fun _ => books, [], books⟩
  | cons fid rest ih =>
      unfold eventLoop
      have absorbed := scanClAbsorb_effect env.memory s.allocs {} r fid
      have more := scanClAbsorb_allocs env.memory s.allocs {} r fid
      generalize scanClAbsorb env.memory s.allocs {} r fid = made at absorbed more ⊢
      obtain ⟨one, allocs⟩ := made
      have effect := scanClDeliver_effect sc env consumer { s with allocs } one false
      have events : one.coEvents = [r] := absorbed.coEvents
      have named : one.coFid = fid.getD {} := absorbed.coFid
      have index : one.coIndex = r.crIndex := absorbed.coIndex
      have framed : Books r.crIndex _ { s with allocs } :=
        books.frame rfl ⟨rfl, rfl, rfl, rfl, more⟩ rfl
      have after :=
        framed.delivered ⟨r, by simp [events], index.symm⟩ (UInt64.le_of_eq index) effect
      dsimp only
      split
      · rename_i failed
        exact ⟨fun ok => absurd ok (by simpa using failed), _, after⟩
      · rename_i ok
        obtain ⟨⟨how, settled⟩, -⟩ := effect.accepted (by simpa using ok)
        refine ih _ (after.resolve ?_)
        rintro other object ⟨rfl, waiting⟩
        rcases List.mem_cons.mp waiting with rfl | later
        · refine Or.inl ⟨one.coEvents, how, ?_, by simp [events]⟩
          change ClEvent.settled (fid.getD {}) _ _ ∈ _
          exact named ▸ settled
        · exact Or.inr (Or.inr ⟨rfl, later⟩)

theorem eventFids_objects (r : ChangelogRec)
    : (eventFids r).map (·.getD {}) = r.objects := by
  unfold eventFids ChangelogRec.objects
  split
  · rfl
  · simp [Function.comp_def]

/-- A record that is stopped in the middle puts the high-water mark back. -/
theorem scanClEvent_books (r : ChangelogRec) (s : ScanCl σ)
    (books : Books r.crIndex (Pending r r.objects) s) (behind : s.slAccepted < r.crIndex)
    : Outcome r [] (scanClEvent sc env consumer s r).1 (scanClEvent sc env consumer s r).2 := by
  obtain ⟨done, todo, partway⟩ :=
    eventLoop_books sc env consumer r _ s (eventFids_objects r ▸ books)
  unfold scanClEvent
  dsimp only
  split
  · rename_i failed
    refine ⟨fun ok => absurd ok (by simpa using failed),
      fun _ => ⟨todo, ?_, Or.inl (Or.inl behind)⟩⟩
    exact
      {
        step := partway.step.keep (.of_eq rfl rfl rfl rfl rfl)
        safe := partway.safe
        accounted := partway.accounted
        cached := partway.cached
        accepted := UInt64.le_of_lt behind
        reached := fun _ top => absurd behind (top ▸ UInt64.lt_irrefl _)
      }
  · rename_i ok
    exact ⟨fun _ => done (by simpa using ok), fun failed => absurd rfl failed⟩

theorem objectAgain_books {r : ChangelogRec} {fid : LuFid} {rest : List LuFid}
    {s : ScanCl σ} (books : Books r.crIndex (Pending r (fid :: rest)) s) {p : ObjPtr}
    (found : scanClFind s fid = some p)
    : Outcome r rest (objectAgain sc env consumer s r fid p).1
        (objectAgain sc env consumer s r fid p).2 := by
  obtain ⟨front, back, next, after, here, named, absorbed, queued, way⟩ :=
    objectAgain_exit sc env consumer books.step r found
  have held := books.cached (s.objs p) (by simp [here])
  have gathered : Books r.crIndex (Pending r rest) after := by
    refine books.gather (front ++ back) absorbed.coFid absorbed.gathers (held.absorb absorbed) ?_ ?_
      queued.step queued.trace queued.held queued.slAccepted
    · intro x member
      rw [here] at member
      rcases List.mem_append.mp member with front | member
      · exact Or.inl (List.mem_append_left _ front)
      rcases List.mem_cons.mp member with rfl | back
      · exact Or.inr ⟨named, fun e member => by simp [absorbed.coEvents, member]⟩
      · exact Or.inl (List.mem_append_right _ back)
    · intro x member
      rw [here]
      rcases List.mem_append.mp member with front | back
      · exact List.mem_append_left _ front
      · exact List.mem_append_right _ (List.mem_cons_of_mem _ back)
  rcases way with ends | busy
  · rw [ends]
    exact ⟨fun _ => gathered, fun failed => absurd rfl failed⟩
  · obtain ⟨others, last⟩ := queued.last
    rw [busy]
    exact gathered.outcome sc env consumer last

theorem objectNew_books {r : ChangelogRec} {fid : LuFid} {rest : List LuFid}
    {s : ScanCl σ} (books : Books r.crIndex (Pending r (fid :: rest)) s)
    (missing : scanClFind s fid = none) (positive : 0 < r.crIndex)
    : Outcome r rest (objectNew sc env consumer s r fid).1
        (objectNew sc env consumer s r fid).2 := by
  have way := objectNew_exit sc env consumer books.step r missing
  have gathered {o : ScanClObj} {after : ScanCl σ}
      (absorbed : Absorbed { coFirst := r.crIndex } r fid o)
      (queued : Queued s s.held s.allocs o after)
      : Books r.crIndex (Pending r rest) after :=
    books.gather s.held absorbed.coFid absorbed.gathers (absorbed.fresh positive)
      (fun x member => Or.inl member) (fun x member => member) queued.step queued.trace queued.held
      queued.slAccepted
  generalize objectNew sc env consumer s r fid = result at way ⊢
  cases way with
  | noMemory =>
      refine ⟨fun ok => absurd ok (show -enomem ≠ 0 by decide),
        fun _ => ⟨fid :: rest, ?_, Or.inr ⟨fid, by simp⟩⟩⟩
      exact books.extend [.noMemory fid r.crIndex] (by simp) rfl
        ⟨rfl, rfl, rfl, rfl, Nat.le_succ _⟩ books.accepted
        (fun pos top => (books.reached pos top).append _)
  | kept absorbed queued =>
      exact ⟨fun _ => gathered absorbed queued, fun failed => absurd rfl failed⟩
  | pushed absorbed queued full aged =>
      exact (gathered absorbed queued).outcome sc env consumer aged

theorem scanClObjectOne_books {r : ChangelogRec} {fid : LuFid} {rest : List LuFid}
    {s : ScanCl σ} (books : Books r.crIndex (Pending r (fid :: rest)) s)
    (positive : 0 < r.crIndex)
    : Outcome r rest (scanClObjectOne sc env consumer s r fid).1
        (scanClObjectOne sc env consumer s r fid).2 := by
  unfold scanClObjectOne
  split
  · rename_i o found
    exact objectAgain_books sc env consumer books found
  · rename_i missing
    exact objectNew_books sc env consumer books missing positive

theorem objectLoop_books {r : ChangelogRec} (positive : 0 < r.crIndex) (fids : List LuFid)
    (s : ScanCl σ) (books : Books r.crIndex (Pending r fids) s)
    : Outcome r [] (objectLoop sc env consumer r fids s).1
        (objectLoop sc env consumer r fids s).2 := by
  induction fids generalizing s with
  | nil => exact ⟨fun _ => books, fun failed => absurd rfl failed⟩
  | cons fid rest ih =>
      have one := scanClObjectOne_books sc env consumer books positive
      unfold objectLoop
      dsimp only
      split
      · rename_i failed
        have failed : (scanClObjectOne sc env consumer s r fid).1 ≠ 0 := by simpa using failed
        exact ⟨fun ok => absurd ok failed, fun _ => one.stop failed⟩
      · rename_i ok
        exact ih _ (one.ok (by simpa using ok))

theorem scanClObject_books {r : ChangelogRec} {s : ScanCl σ}
    (books : Books r.crIndex (Pending r r.objects) s) (behind : s.slAccepted < r.crIndex)
    : Outcome r [] (scanClObject sc env consumer s r).1
        (scanClObject sc env consumer s r).2 := by
  unfold scanClObject
  dsimp only
  split
  · exact scanClEvent_books sc env consumer r s books behind
  · rename_i some
    have objects : r.objects = scanClRecFids r := if_neg some
    exact objectLoop_books sc env consumer
      (UInt64.lt_of_le_of_lt UInt64.zero_le behind) _ s (objects ▸ books)

theorem scanRecord_books {r : ChangelogRec} {s : ScanCl σ}
    (books : Books r.crIndex (Pending r r.objects) s) (behind : s.slAccepted < r.crIndex)
    : Outcome r [] (scanRecord sc env consumer s r).1 (scanRecord sc env consumer s r).2 := by
  unfold scanRecord
  have framed : Books r.crIndex (Pending r r.objects)
      { s with slStats.ssSeen := s.slStats.ssSeen + 1 } :=
    books.frame rfl (.of_eq rfl rfl rfl rfl rfl) rfl
  cases mode : sc.coalesce with
  | false =>
      have event := scanClEvent_books sc env consumer r _ framed behind
      simp only [Bool.false_eq_true, ↓reduceIte]
      split
      · exact event
      · rename_i ok
        exact ⟨fun _ => event.ok (by simpa using ok), fun failed => absurd rfl failed⟩
  | true =>
      have object := scanClObject_books sc env consumer framed behind
      simp only [↓reduceIte]
      split
      · exact object
      · rename_i ok
        obtain ⟨after, blocked⟩ :=
          flushLoop_books sc env consumer false _ _ rfl (object.ok (by simpa using ok))
        exact ⟨fun _ => after, fun failed => ⟨[], after, Or.inl (blocked failed)⟩⟩

end Record

-----------------------------------------------------------------------------------------
-- The whole scan
-----------------------------------------------------------------------------------------

/-- How the main loop ends: with nothing pending that the high-water mark could pass, or in
the middle of a record.
-/
def Ended (s : ScanCl σ) : Prop :=
  (∃ k pending, Books k pending s ∧ ∀ r fid, pending r fid → k < r.crIndex)
    ∨ (s.slStopRc ≠ 0 ∧ ∃ r, 0 < r.crIndex ∧ Stopped r s)

theorem Books.ended {k : UInt64} {s : ScanCl σ} (books : Books k NoPending s) : Ended s :=
  Or.inl ⟨k, NoPending, books, fun _ _ waiting => waiting.elim⟩

section Scan

variable (sc : ScanParams) (env : ScanEnv) (consumer : Consumer σ)

theorem scanLoop_ended (readEnd : Int) (log : List ChangelogRec) {k : UInt64}
    (s : ScanCl σ) (books : Books k NoPending s) (above : ∀ r ∈ log, k < r.crIndex)
    (increasing : log.Pairwise (·.crIndex < ·.crIndex))
    : Ended (scanLoop sc env consumer readEnd log s).2 := by
  induction log generalizing k s with
  | nil => exact books.ended
  | cons r rest ih =>
      obtain ⟨later, increasing⟩ := List.pairwise_cons.mp increasing
      have next := above r List.mem_cons_self
      have read : Books k (Pending r r.objects)
          { s with slNow := r.seconds, trace := s.trace ++ [.read r] } :=
        books.read r rfl (.of_eq rfl rfl rfl rfl rfl) rfl
      unfold scanLoop
      dsimp only
      split
      · -- past the end of the range: read, but not looked at
        exact Or.inl ⟨k, _, read, fun other fid waiting => waiting.1 ▸ next⟩
      have outcome :=
        scanRecord_books sc env consumer (read.raise next)
          (UInt64.lt_of_le_of_lt books.accepted next)
      split
      · rename_i failed
        have failed := bne_iff_ne.mp failed
        obtain ⟨todo, stopped, why⟩ := outcome.stop failed
        have positive := UInt64.lt_of_le_of_lt UInt64.zero_le next
        exact Or.inr
          ⟨failed, r, positive, todo, stopped.frame rfl (.of_eq rfl rfl rfl rfl rfl) rfl, why⟩
      · rename_i ok
        have settled := (outcome.ok (by simpa using ok)).settled
        have cleared :=
          settled.clear (fun _ _ waiting => waiting.elim) (scanClClear_effect sc env _ false)
        split
        · exact cleared.ended
        · exact ih _ cleared later increasing

theorem MemoryHolds.blocked {r : ChangelogRec} {todo : List LuFid} {s : ScanCl σ}
    {extra : List ClEvent} (memory : MemoryHolds (s.trace ++ extra))
    (positive : 0 < r.crIndex) (books : Books r.crIndex (Pending r todo) s)
    (why : Blocked r.crIndex s ∨ ∃ fid, .noMemory fid r.crIndex ∈ s.trace)
    : Blocked r.crIndex s := by
  rcases why with blocked | ⟨fid, failed⟩
  · exact blocked
  · -- nothing of the record was settled, so the mark cannot have got to it
    refine Or.inl (UInt64.lt_of_le_of_ne books.accepted fun top => ?_)
    exact memory fid r.crIndex (List.mem_append_left _ failed)
      ((books.reached positive top).append _)

/-- The last clear, which a failed read keeps back. -/
theorem Books.lastClear (read : Int) {k : UInt64} {pending : ChangelogRec → LuFid → Prop}
    {s : ScanCl σ} (books : Books k pending s)
    (blocked : ∀ r fid, pending r fid → Blocked r.crIndex s)
    : ClearSafe (if read ≥ 0 then scanClClear sc env s true else s).trace := by
  split
  · exact (books.clear blocked (scanClClear_effect sc env s true)).safe
  · exact books.safe

theorem lastClear_trace (read : Int) (s : ScanCl σ)
    : ∃ extra, (if read ≥ 0 then scanClClear sc env s true else s).trace = s.trace ++ extra := by
  split
  · rcases (scanClClear_effect sc env s true).trace with quiet | ⟨upto, trace, -⟩
    · exact ⟨[], by simpa using quiet⟩
    · exact ⟨_, trace⟩
  · exact ⟨[], by simp⟩

theorem scanFinish_safe (rc : Int) (s : ScanCl σ) (ended : Ended s)
    (memory : MemoryHolds (scanFinish sc env consumer rc s).2.trace)
    : ClearSafe (scanFinish sc env consumer rc s).2.trace := by
  unfold scanFinish at memory ⊢
  dsimp only at memory ⊢
  generalize (if rc == 1 then 0 else rc) = read at memory ⊢
  rcases ended with ⟨k, pending, books, beyond⟩ | ⟨stopped, r, positive, todo, books, why⟩
  · -- the last flush may deliver anything cached, and all of that is below what is pending
    have flushed : Books k pending (scanClFlush sc env consumer s true).2 :=
      (flushLoop_books sc env consumer true _ _ rfl books).1
    have closing : ∀ mid : ScanCl σ, Books k pending mid →
        ClearSafe (if read ≥ 0 then scanClClear sc env mid true else mid).trace :=
      fun mid books => books.lastClear sc env read fun other fid waiting =>
        Or.inl (UInt64.lt_of_le_of_lt books.accepted (beyond other fid waiting))
    apply closing
    split
    · split
      · exact flushed.frame rfl (.of_eq rfl rfl rfl rfl rfl) rfl
      · exact flushed
    · exact books
  · have skipped : (s.slStopRc == 0 && sc.coalesce) = false := by simp [stopped]
    simp only [skipped, Bool.false_eq_true, ↓reduceIte] at memory ⊢
    obtain ⟨extra, trace⟩ := lastClear_trace sc env read s
    rw [trace] at memory
    have blocked := memory.blocked positive books why
    exact books.lastClear sc env read fun other fid waiting => waiting.1 ▸ blocked

/-- A clear never outruns the consumer, over every log with increasing positive indices and
whatever the filter, the callback and the allocations do, as long as memory never runs out
for an object of a record of which another object has been delivered.
-/
theorem clear_never_outruns_consumer (log : List ChangelogRec) (readEnd : Int) (data : σ)
    (positive : ∀ r ∈ log, 0 < r.crIndex)
    (increasing : log.Pairwise (·.crIndex < ·.crIndex))
    (memory : MemoryHolds (llapiScanChangelog sc env consumer log readEnd data).2.trace)
    : ClearSafe (llapiScanChangelog sc env consumer log readEnd data).2.trace := by
  have start : Books 0 NoPending ({ slData := data, allocs := 1 } : ScanCl σ) :=
    {
      step := .empty rfl rfl rfl
      safe := clearSafe_nil
      accounted := fun _ read => absurd read List.not_mem_nil
      cached := fun _ cached => absurd cached List.not_mem_nil
      accepted := UInt64.le_refl _
      reached := fun above => absurd above (UInt64.lt_irrefl _)
    }
  have ended := scanLoop_ended sc env consumer readEnd log _ start positive increasing
  unfold llapiScanChangelog at memory ⊢
  dsimp only at memory ⊢
  split
  · exact clearSafe_nil
  split
  · exact clearSafe_nil
  split
  · exact clearSafe_nil
  split
  · exact clearSafe_nil
  rename_i accepted allocated mounted started
  rw [if_neg accepted, if_neg allocated, if_neg mounted, if_neg started] at memory
  exact scanFinish_safe sc env consumer _ _ ended memory

end Scan

end Scans

-----------------------------------------------------------------------------------------
-- A rename over an existing name
-----------------------------------------------------------------------------------------

def replacedFid : LuFid := { fSeq := 0x200000401, fOid := 1, fVer := 0 }

def movedFid : LuFid := { fSeq := 0x200000401, fOid := 2, fVer := 0 }

/-- A file is made as `a`. -/
def createEvent : ChangelogRec :=
  { crIndex := 1, crTfid := replacedFid, crName := [97] }

/-- An hour later `b` is renamed to `a`: the record is about both files. -/
def renameEvent : ChangelogRec :=
  {
    crIndex := 2
    crType := .rename
    crFlags := clfRename
    crTime := (3600 : UInt64) <<< 30
    crTfid := replacedFid
    crName := [97]
    rename := { crSfid := movedFid, sname := [98] }
  }

def clearingParams : ScanParams :=
  { mdtname := some [77], user := some [99], coalesce := true, clear := true }

/-- A consumer with no filter that takes everything. -/
def takesAll : Consumer Unit := { scFilter := none, cb := fun _ data => (0, data) }

theorem clear_never_outruns_consumer_renameOver
    : letI := plainFid
      let trace :=
        (llapiScanChangelog clearingParams {} takesAll [createEvent, renameEvent] 1 ()).2.trace
      .clear 2 ∈ trace ∧ MemoryHolds trace ∧ ClearSafe trace := by
  intro trace
  have run : trace =
      [
        .read createEvent,
        .read renameEvent,
        .settled replacedFid [createEvent, renameEvent] .taken,
        .settled movedFid [renameEvent] .taken,
        .clear 2
      ] := by
    decide
  have memory : MemoryHolds trace := by
    intro fid index failed
    simp [run] at failed
  refine ⟨by simp [run], memory, ?_⟩
  exact @clear_never_outruns_consumer _ plainFid clearingParams {} takesAll
    [createEvent, renameEvent] 1 () (by decide) (by decide) memory

/-- The replaced file has been cached for an hour and is delivered with the rename. The sixth
allocation is the moved file's; it fails, the scan stops, and the last clear purges the rename
although no callback has seen the file that moved.
-/
theorem clear_outruns_consumer_noMemory
    : letI := plainFid
      let log := [createEvent, renameEvent]
      let trace :=
        (llapiScanChangelog clearingParams { memory := (· != 5) } takesAll log 1 ()).2.trace
      (∀ r ∈ log, 0 < r.crIndex) ∧ log.Pairwise (·.crIndex < ·.crIndex) ∧ ¬ClearSafe trace := by
  intro log trace
  refine ⟨by decide, by decide, fun safe => ?_⟩
  have run : trace =
      [
        .read createEvent,
        .read renameEvent,
        .settled replacedFid [createEvent, renameEvent] .taken,
        .noMemory movedFid 2
      ] ++ [.clear 2] := by
    decide
  obtain ⟨events, how, settled, -⟩ :=
    safe _ 2 [] run renameEvent (by simp) (by decide) movedFid (by decide)
  simp [replacedFid, movedFid] at settled

/-- `scan_cl_held_first` takes a `co_first` of 0 for an empty cache, so a record of index 0 is
not held back: the other file ages out, and its record is cleared with the one before it.
-/
theorem clear_passes_record_zero
    : letI := plainFid
      let log : List ChangelogRec :=
        [
          { crIndex := 0, crTfid := replacedFid },
          { crIndex := 1, crTfid := movedFid },
          { crIndex := 2, crTfid := replacedFid, crTime := (700 : UInt64) <<< 30 }
        ]
      let refuses : Consumer Unit :=
        {
          scFilter := none
          cb := fun rec_ data => (if rec_.lfsrFid = replacedFid then 1 else 0, data)
        }
      let trace := (llapiScanChangelog clearingParams {} refuses log 1 ()).2.trace
      log.Pairwise (·.crIndex < ·.crIndex) ∧ ¬ClearSafe trace := by
  intro log refuses trace
  refine ⟨by decide, fun safe => ?_⟩
  have run : trace =
      (log.map .read ++ [.settled movedFid [{ crIndex := 1, crTfid := movedFid }] .taken])
        ++ [.clear 1] := by
    decide
  obtain ⟨events, how, settled, -⟩ :=
    safe _ 1 [] run { crIndex := 0, crTfid := replacedFid } (by simp [log]) (by decide)
      replacedFid (by decide)
  simp [log, replacedFid, movedFid] at settled

end LfuScan.Changelog

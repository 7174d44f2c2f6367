import LfuScan.ScanDevice.Ldiskfs
import LfuScan.Find.Dirmap

/-! The pre-pass of a search that names what it finds: a sweep of the same target before the
search, for its directories only, that fills the map from a directory to its parent and name.
The callback of the map does not lock, so the pre-pass has one worker.
-/

namespace LfuScan.ScanDevice

open LfuScan.Lustre LfuScan.Foundations LfuScan.Filter

/-- What a pre-pass asks for. -/
def ppWant : UInt64 :=
  scanFid ||| statxMode ||| statxType ||| scanClassBit ||| scanParent ||| scanLinkeaBit ||| scanLmv

def scanDirmapFilter (rec : LlapiScanRec) : Int :=
  if sIsdir rec.lfsrStx.stxMode.toUInt32 then 0 else 1

/-- The target as `scan_device_run_prepass` sets it up for the first of its two sweeps. -/
def prepassDev (dev : ScanDev) : ScanDev :=
  { dev with sdWant := ppWant, sdFilter := some scanDirmapFilter }

/-- A record as the callback of the map reads it. -/
def dirRec (rec : LlapiScanRec) : Find.ScanDirRec where
  statxMode := rec.lfsrStx.stxMask &&& statxMode.toUInt32 != 0
  stxMode := rec.lfsrStx.stxMode
  scanFid := rec.lfsrValid &&& scanFid != 0
  scanParent := rec.lfsrValid &&& scanParent != 0
  scanLmvShard := rec.lfsrValid &&& scanLmvShard != 0
  lfsrFid := rec.lfsrFid
  lfsrParentFid := rec.lfsrParentFid
  lfsrName := rec.lfsrName

/-- The directories on the target, of those the pre-pass is handed. -/
def targetDirs (host : Host) (dev : ScanDev) (backend : Backend) : List Find.ScanDirent :=
  (((backend.items dev.sdTgtInfo.ttChunks).filterMap (itemRecord host (prepassDev dev))).map
    dirRec).filterMap Find.mappedDir?

section Place

variable {host : Host} {dev : ScanDev} {obj : LlapiScanObj} {rec mid after : LlapiScanRec}

/-- A step that fills a record keeps what the object is and which one, and gives it a short
name or none.
-/
structure SameObject (rec after : LlapiScanRec) : Prop where
  mode : after.lfsrStx.stxMode = rec.lfsrStx.stxMode
  fid : after.lfsrFid = rec.lfsrFid
  known : after.lfsrValid &&& scanFid = rec.lfsrValid &&& scanFid
  name
    : after.lfsrName = rec.lfsrName
      ∨ ∃ text : Bytes, after.lfsrName = some text ∧ text.length ≤ Find.nameMax

theorem SameObject.refl (rec : LlapiScanRec) : SameObject rec rec := ⟨rfl, rfl, rfl, .inl rfl⟩

theorem SameObject.trans (first : SameObject rec mid) (second : SameObject mid after)
    : SameObject rec after where
  mode := second.mode.trans first.mode
  fid := second.fid.trans first.fid
  known := second.known.trans first.known
  name := second.name.elim (fun same => first.name.imp same.trans fun ⟨text, named, short⟩ =>
    ⟨text, same.trans named, short⟩) .inr

theorem known_or {valid bits : UInt64} (others : bits &&& scanFid = 0)
    : (valid ||| bits) &&& scanFid = valid &&& scanFid := by
  apply UInt64.toNat_inj.mp
  have others := congrArg UInt64.toNat others
  rw [UInt64.toNat_and] at others
  rw [UInt64.toNat_and, UInt64.toNat_or, Nat.and_or_distrib_right, others, UInt64.toNat_and]
  exact Nat.or_zero _

theorem fillLayout_same : SameObject rec (fillLayout obj rec) := by
  unfold fillLayout
  split
  · exact .refl rec
  · exact ⟨rfl, rfl, known_or (by decide), .inl rfl⟩

theorem fillLmv_same {buf left : Bytes} (fills : fillLmv host obj buf rec = some (left, after))
    : SameObject rec after := by
  unfold fillLmv at fills
  split at fills
  · cases fills
    exact .refl rec
  · simp only [Option.bind_eq_bind, Option.bind_eq_some_iff] at fills
    obtain ⟨converted, _, fills⟩ := fills
    split at fills
    · obtain ⟨magic, _, made⟩ := Option.bind_eq_some_iff.mp fills
      cases made
      refine ⟨rfl, rfl, ?_, .inl rfl⟩
      dsimp only
      rw [known_or (by split <;> decide), known_or (by decide)]
    · obtain ⟨shard, _, made⟩ := Option.bind_eq_some_iff.mp fills
      split at made <;> cases made
      · exact ⟨rfl, rfl, known_or (by decide), .inl rfl⟩
      · exact .refl rec

/-- The name fits the buffer it was read into. -/
theorem loadString_short {name : Vector UInt8 256} {text : Bytes}
    (loads : loadString name = some text)
    : text.length ≤ Find.nameMax :=
  Nat.le_of_lt_succ (loadString_length loads)

theorem fillLink_same {name left : Vector UInt8 256}
    (fills : fillLink host dev obj name rec = some (left, after))
    : SameObject rec after := by
  unfold fillLink scanLinkea at fills
  split at fills
  · split at fills
    · cases fills
      exact .refl rec
    · simp only [Option.bind_eq_bind, Option.bind_eq_some_iff] at fills
      obtain ⟨entry, _, fills⟩ := fills
      split at fills
      · cases fills
        exact .refl rec
      · obtain ⟨text, loads, made⟩ := Option.bind_eq_some_iff.mp fills
        cases made
        refine ⟨rfl, rfl, ?_, ?_⟩
        · dsimp only
          rw [known_or (by split <;> decide), known_or (by decide)]
        · dsimp only
          split
          · exact .inr ⟨text, rfl, loadString_short loads⟩
          · exact .inl rfl
  · cases fills
    exact .refl rec

theorem scanHsm_same (fills : scanHsm obj rec = some after) : SameObject rec after := by
  unfold scanHsm at fills
  split at fills
  · cases fills
    exact .refl rec
  · split at fills
    · cases fills
      exact .refl rec
    · simp only [Option.bind_eq_bind, Option.bind_eq_some_iff] at fills
      obtain ⟨states, _, archive, _, made⟩ := fills
      cases made
      exact ⟨rfl, rfl, known_or (by decide), .inl rfl⟩

theorem scanOwner_same (fills : scanOwner host obj rec = some after) : SameObject rec after := by
  unfold scanOwner at fills
  split at fills
  · cases fills
    exact .refl rec
  · split at fills
    · cases fills
      exact .refl rec
    · simp only [Option.bind_eq_bind, Option.bind_eq_some_iff] at fills
      obtain ⟨seq, _, oid, _, made⟩ := fills
      split at made <;> cases made
      · exact ⟨rfl, rfl, known_or (by decide), .inl rfl⟩
      · exact ⟨rfl, rfl, rfl, .inl rfl⟩

theorem scanSize_unasked {want : UInt64} {ost : Bool}
    (unasked
      : (want &&& (statxSize ||| statxBlocks ||| scanLazySize ||| scanLazyBlocks) == 0) = true)
    : scanSize obj want ost rec = some rec := if_pos unasked

/-- What a record of the pre-pass says of its object. -/
structure Placed (obj : LlapiScanObj) (rec : LlapiScanRec) : Prop where
  mode : rec.lfsrStx.stxMode = obj.soMode.toUInt16
  fid : rec.lfsrValid &&& scanFid ≠ 0 → rec.lfsrFid.fSeq ≠ 0
  name : ∀ text, rec.lfsrName = some text → text.length ≤ Find.nameMax

/-- A FID is marked valid if it is sane, or one that an old inode number gives. -/
theorem fillFid_placed (lma : Option LustreMdtAttrs) {cls : ScanClass}
    : let bare := scanRecObj host dev obj
      Placed obj (fillFid host dev obj lma
        { bare with lfsrClass := cls, lfsrValid := bare.lfsrValid ||| scanClassBit }) := by
  have unknown : ((scanRecObj host dev obj).lfsrValid ||| scanClassBit) &&& scanFid = 0 := by
    rw [known_or (by decide)]
    dsimp only [scanRecObj]
    rw [known_or (by split <;> decide), known_or (by split <;> decide),
      known_or (by split <;> decide)]
    decide
  intro bare
  unfold fillFid
  split
  · rename_i lma
    refine ⟨rfl, fun valid => ?_, fun _ named => ?_⟩
    · dsimp only at valid ⊢
      by_cases sane : host.fid.fidIsSane lma.lmaSelfFid = true
      · exact host.fid.sane_seq _ sane
      · rw [if_neg sane, UInt64.or_zero, known_or (by decide), known_or (by decide)] at valid
        exact absurd unknown valid
    · cases named
  · split
    · refine ⟨rfl, fun valid => ?_, fun _ named => ?_⟩
      · dsimp only at valid ⊢
        generalize host.fid.luIgifBuild _ _ = igif at valid ⊢
        by_cases old : fidSeqIsIgif igif.fSeq = true
        · intro zero
          rw [zero] at old
          exact absurd old (by decide)
        · rw [if_neg old, UInt64.or_zero] at valid
          exact absurd unknown valid
      · cases named
    · exact ⟨rfl, fun valid => absurd unknown valid, fun _ named => by cases named⟩

theorem Placed.same (placed : Placed obj rec) (same : SameObject rec after) : Placed obj after where
  mode := same.mode.trans placed.mode
  fid valid := by
    rw [same.known] at valid
    rw [same.fid]
    exact placed.fid valid
  name text named := by
    rcases same.name with kept | ⟨short, given, fits⟩
    · exact placed.name text (kept ▸ named)
    · rw [given] at named
      cases named
      exact fits

theorem sinkRecord_placed {buf left : ScanBuf} {cls : ScanClass}
    (sinks : sinkRecord host (prepassDev dev) buf obj = some (left, cls, some rec))
    : Placed obj rec := by
  obtain ⟨lma, decodes⟩ := scanDecodeLma_inside obj
  simp only [sinkRecord, decodes, Option.bind_eq_bind, Option.bind_some] at sinks
  split at sinks
  · cases sinks
  · simp only [Option.bind_eq_some_iff] at sinks
    obtain ⟨⟨swLmv, striped⟩, lmv, ⟨swName, linked⟩, link, archived, hsm, owned, owner, sized,
      size, made⟩ := sinks
    cases made
    have unasked
        : (ppWant &&& (statxSize ||| statxBlocks ||| scanLazySize ||| scanLazyBlocks) == 0)
          = true := by
      decide
    have want : (prepassDev dev).sdWant = ppWant := rfl
    rw [want, scanSize_unasked unasked] at size
    cases size
    exact (fillFid_placed lma).same
      ((((fillLayout_same.trans (fillLmv_same lmv)).trans (fillLink_same link)).trans
        (scanHsm_same hsm)).trans (scanOwner_same owner))

theorem objectSink_placed (shown : (objectSink host (prepassDev dev) obj).2 = some rec)
    : Placed obj rec := by
  obtain ⟨left, sinks, _⟩ :=
    sinkRecord_objectSink (ScanBuf.cleared_sized host) (prepassDev dev) obj
  exact sinkRecord_placed (sinks.trans (by rw [← shown]))

/-- A record the map takes is one of a directory, with a FID and a short name. -/
theorem mappedDir_placed {e : Find.ScanDirent} (placed : Placed obj rec)
    (mapped : Find.mappedDir? (dirRec rec) = some e)
    : sIsdir obj.soMode.toUInt16.toUInt32 = true
      ∧ Find.fidKey e.sdFid ≠ (0, 0)
      ∧ e.sdName.length ≤ Find.nameMax := by
  unfold Find.mappedDir? at mapped
  split at mapped
  · rename_i facts
    simp only [Bool.and_eq_true] at facts
    obtain ⟨⟨⟨_, dir⟩, known⟩, _⟩ := facts
    obtain ⟨text, named, rfl⟩ := Option.map_eq_some_iff.mp mapped
    refine ⟨placed.mode ▸ dir, fun zero => ?_, ?_⟩
    · exact placed.fid (bne_iff_ne.mp known) (Prod.mk.inj zero).1
    · dsimp only
      split
      · exact Nat.zero_le _
      · exact placed.name text named
  · cases mapped

end Place

section Prepass

variable {host : Host} {dev : ScanDev} {backend : Backend} {calloc : Nat → Bool}
  {trace : List SweepLabel} {s : Sweep} {out : LlapiScanStats}

end Prepass

/-- The directory of a target of one, and the FID of its file. -/
theorem twoObjects_dirs
    : targetDirs oneHost namingDev twoObjects
      = [
          {
            sdFid := { fSeq := 0x200000400, fOid := 1 }
            sdParent := { fSeq := 1, fOid := 2 }
            sdName := [0x61]
          }
        ] := by
  decide +kernel

section Filter

variable {host : Host} {dev : ScanDev}

/-- The pre-pass as it would be without its filter. -/
def unfilteredDev (dev : ScanDev) : ScanDev := { prepassDev dev with sdFilter := none }

/-- Reading its attributes does not change what an object is. -/
def Backend.KeepsMode (backend : Backend) : Prop :=
  ∀ idx bare obj, Item.object bare (some obj) ∈ backend.chunk idx → obj.soMode = bare.soMode

/-- An ldiskfs inode is what it is before its attributes are read. -/
theorem inodeItem_mode {t : ScanLdiskfsTgt} {want : ScanXattr → Bool} {ino : UInt32}
    {raw : Ext2Inode} {bare obj : LlapiScanObj}
    (found : inodeItem t want ino raw = some (.object bare (some obj)))
    : obj.soMode = bare.soMode := by
  unfold inodeItem at found
  split at found
  · cases found
  · split at found
    · cases found
    · split at found
      · cases found
      · split at found
        · cases found
        · obtain ⟨same, read⟩ := Item.object.inj (Option.some.inj found)
          obtain ⟨h, _, rfl⟩ := Option.map_eq_some_iff.mp read
          rw [← same]

theorem scanLdiskfsLoop_mode {t : ScanLdiskfsTgt} {want : ScanXattr → Bool} {endIno : Nat}
    {done : Bool} {bare obj : LlapiScanObj} (calls : InodeCalls)
    (member : Item.object bare (some obj) ∈ (scanLdiskfsLoop t want endIno done calls).1)
    : obj.soMode = bare.soMode := by
  induction calls with
  | finished | failed => cases member
  | unreadable ino rest ih =>
      rw [scanLdiskfsLoop] at member
      split at member
      · cases member
      · rcases List.mem_append.mp member with here | later
        · unfold unreadableItem at here
          split at here
          · cases here
          · split at here
            · cases here
            · cases List.mem_singleton.mp here
        · exact ih later
  | inode ino raw rest ih =>
      rw [scanLdiskfsLoop] at member
      split at member
      · cases member
      · rcases List.mem_append.mp member with here | later
        · exact inodeItem_mode (Option.mem_toList.mp here)
        · exact ih later

theorem scanLdiskfsBackend_keepsMode (t : ScanLdiskfsTgt) (want : ScanXattr → Bool)
    : (scanLdiskfsBackend t want).KeepsMode := by
  intro idx bare obj member
  have member : Item.object bare (some obj) ∈ (scanLdiskfsScanChunk t want idx).1 := member
  unfold scanLdiskfsScanChunk at member
  split at member
  · cases member
  · dsimp only at member
    split at member
    · cases member
    · exact scanLdiskfsLoop_mode _ member

/-- What the map takes of an item. -/
def itemDir? (host : Host) (dev : ScanDev) (item : Item) : Option Find.ScanDirent :=
  (itemRecord host dev item).bind fun rec => Find.mappedDir? (dirRec rec)

/-- An object the filter drops is none the map would take. -/
theorem itemDir?_filtered {bare : LlapiScanObj} {full : Option LlapiScanObj}
    (keeps : ∀ obj, full = some obj → obj.soMode = bare.soMode)
    : itemDir? host (prepassDev dev) (.object bare full)
      = itemDir? host (unfilteredDev dev) (.object bare full) := by
  have plain : itemRecord host (unfilteredDev dev) (.object bare full)
      = full.bind fun obj => (objectSink host (prepassDev dev) obj).2 := rfl
  have filtered : itemRecord host (prepassDev dev) (.object bare full)
      = if 0 < scanDirmapFilter (scanRecObj host (prepassDev dev) bare) then none
        else full.bind fun obj => (objectSink host (prepassDev dev) obj).2 := rfl
  rw [itemDir?, itemDir?, plain, filtered]
  split
  · rename_i dropped
    have other : sIsdir bare.soMode.toUInt16.toUInt32 = false := by
      by_contra dir
      have passes : scanDirmapFilter (scanRecObj host (prepassDev dev) bare) = 0 :=
        if_pos (Bool.eq_true_of_not_eq_false dir)
      omega
    symm
    rw [Option.bind_none, Option.bind_eq_none_iff]
    intro rec made
    obtain ⟨obj, same, shown⟩ := Option.bind_eq_some_iff.mp made
    cases mapped : Find.mappedDir? (dirRec rec) with
    | none => rfl
    | some e =>
        have dir := (mappedDir_placed (objectSink_placed shown) mapped).1
        rw [keeps obj same, other] at dir
        cases dir
  · rfl

/-- The filter of the pre-pass, which reads no attribute, keeps no directory from the map: the
directories are those of a pre-pass over every object. So it is on every ldiskfs target.
-/
theorem prepass_filter_complete (host : Host) (dev : ScanDev)
    : (∀ backend : Backend, backend.KeepsMode →
        targetDirs host dev backend
        = (backend.items dev.sdTgtInfo.ttChunks).filterMap (itemDir? host (unfilteredDev dev)))
      ∧ ∀ t want, (scanLdiskfsBackend t want).KeepsMode := by
  refine ⟨fun backend keeps => ?_, scanLdiskfsBackend_keepsMode⟩
  rw [targetDirs, List.filterMap_map, List.filterMap_filterMap]
  refine List.filterMap_congr fun item member => ?_
  obtain ⟨idx, _, member⟩ := List.mem_flatMap.mp member
  cases item with
  | unread why early => rfl
  | object bare full =>
      refine itemDir?_filtered fun obj same => ?_
      rw [same] at member
      exact keeps idx bare obj member

theorem twoObjects_keepsMode : twoObjects.KeepsMode := by
  intro idx bare obj member
  match idx with
  | 0 | 1 =>
      cases List.mem_singleton.mp member
      rfl
  | _ + 2 => cases member

/-- A target with a directory, and with a file that the filter drops. -/
theorem prepass_filter_complete_directory
    : (twoObjects.items 3).filterMap (itemDir? oneHost (unfilteredDev namingDev))
      = [
          {
            sdFid := { fSeq := 0x200000400, fOid := 1 }
            sdParent := { fSeq := 1, fOid := 2 }
            sdName := [0x61]
          }
        ] :=
  ((prepass_filter_complete oneHost namingDev).1 twoObjects twoObjects_keepsMode).symm.trans
    twoObjects_dirs

end Filter

end LfuScan.ScanDevice

import LfuScan.Foundations.CString

/-! The front-end `lfind`: it takes its own options out of the argument list, picks a backend
from what is left and executes it. The grammar of the other options is not known here, so every
argument is tried as the target, from the right, first as a path and then as a dataset.
-/

namespace LfuScan.Front

open LfuScan.Foundations

/-- An argument: the bytes before its terminator. -/
abbrev Arg := List UInt8

/-- `enum lfind_backend`. LFIND_UNKNOWN is `none` of the option type. -/
inductive LfindBackend
  | ldiskfs
  | zfs
  | kmdt
deriving DecidableEq, Repr

namespace LfindBackend

def all : List LfindBackend := [ldiskfs, zfs, kmdt]

/-- `lfind_backend_bin`. -/
def bin : LfindBackend → Arg
  | ldiskfs => cstr "lfind-ldiskfs"
  | zfs => cstr "lfind-zfs"
  | kmdt => cstr "lfind-kmdt"

/-- `lfind_backend_name`. -/
def name : LfindBackend → Arg
  | ldiskfs => cstr "ldiskfs"
  | zfs => cstr "zfs"
  | kmdt => cstr "kmdt"

/-- The backend of this name. -/
def named (arg : Arg) : Option LfindBackend := all.find? (·.name == arg)

end LfindBackend

inductive FileType
  | block
  | regular
  | character
  | other
deriving DecidableEq, Repr

/-- What `lfind` finds on the host: what `stat` says of a path, whether it may be executed,
and the environment variable.
-/
structure Host where
  stat : Arg → Option FileType
  accessX : Arg → Bool := fun _ => false
  dirname : Arg → Arg := id
  lfindLibexec : Option Arg := none

def lfindClassifyPath (host : Host) (arg : Arg) : Option LfindBackend :=
  if arg.isEmpty then
    none
  else
    match host.stat arg with
    | some .block => some .ldiskfs
    | some .regular => some .ldiskfs
    | some .character => some .kmdt
    | some .other => none
    | none => none

def lfindClassifyDataset (arg : Arg) : Option LfindBackend :=
  if arg.isEmpty then
    none
  else if firstChar arg != ch '/' && arg.contains (ch '/')
      && !arg.any (fun c => c == ch ' ' || c == ch '\t') then
    some .zfs
  else
    none

/-- One pass over the first arguments, from the last of them to the left, until one
classifies.
-/
def scanFromRight (classify : Arg → Option LfindBackend) (pass : List Arg)
    : Nat → Option LfindBackend
  | 0 => none
  | i + 1 => (classify (pass.getD i [])).or (scanFromRight classify pass i)

/-- The two passes. -/
def chooseBackend (host : Host) (pass : List Arg) : Option LfindBackend :=
  (scanFromRight (lfindClassifyPath host) pass pass.length).or
    (scanFromRight lfindClassifyDataset pass pass.length)

-----------------------------------------------------------------------------------------
-- The command
-----------------------------------------------------------------------------------------

/-- How `main` ends, short of the exec itself. -/
inductive Outcome
  | listed
  | usage (status : Nat)
  | refused (message : Arg)
  | exec (backend : LfindBackend) (bin : Arg) (argv : List Arg)
deriving DecidableEq

def lfindLocate (host : Host) (self bin : Arg) : Arg :=
  let beside := host.dirname self ++ cstr "/" ++ bin
  if self.contains (ch '/') && host.accessX beside then
    beside
  else
    match host.lfindLibexec with
    | none => bin
    | some env =>
        let path := env ++ cstr "/" ++ bin
        if !env.isEmpty && host.accessX path then path else bin

/-- The backend after `--backend` with this name: an unknown one leaves what was chosen before,
and is refused if that was nothing.
-/
def wantBackend (want : Option LfindBackend) (name : Arg) : Except Outcome LfindBackend :=
  match (LfindBackend.named name).or want with
  | some backend => .ok backend
  | none =>
      .error (.refused
        (cstr "lfind: unknown backend '" ++ name ++ cstr "' (ldiskfs, zfs, kmdt)\n"))

def listBackends : Arg := cstr "--list-backends"
def backendOption : Arg := cstr "--backend"
def backendAssign : Arg := cstr "--backend="

/-- The loop that takes out `lfind`'s own options: the backend asked for, and the arguments to
pass on.
-/
def takeOwn (want : Option LfindBackend)
    : List Arg → Except Outcome (Option LfindBackend × List Arg)
  | [] => .ok (want, [])
  | arg :: rest =>
      if arg == listBackends then
        .error .listed
      else if arg == backendOption then
        match rest with
        | [] => .error (.refused (cstr "lfind: --backend needs a name\n"))
        | name :: rest => do takeOwn (some (← wantBackend want name)) rest
      else if backendAssign.isPrefixOf arg then do
        takeOwn (some (← wantBackend want (arg.drop backendAssign.length))) rest
      else do
        let (want, pass) ← takeOwn want rest
        return (want, arg :: pass)

def cannotTell (arg : Arg) : Arg :=
  cstr "lfind: cannot tell what kind of target '" ++ arg ++ cstr "' is.\n"
    ++ cstr "       A block device or image is ldiskfs, pool/dataset is ZFS,\n"
    ++ cstr "       and a character device is a mounted target via lfu_ring.\n"
    ++ cstr "       Use --backend ldiskfs|zfs|kmdt to say which.\n"

/-- `main` after its own options are out. -/
def dispatch (host : Host) (self : Arg) (want : Option LfindBackend) (pass : List Arg) : Outcome :=
  if pass.isEmpty && want.isNone then
    .usage 2
  else
    match want.or (chooseBackend host pass) with
    | some backend =>
        .exec backend (lfindLocate host self backend.bin) (cstr "lfind" :: pass)
    | none =>
        if pass.any (fun arg => arg == cstr "-h" || arg == cstr "--help") then
          .usage 0
        else
          .refused (cannotTell (pass.getLastD []))

def lfindMain (host : Host) (self : Arg) (args : List Arg) : Outcome :=
  match takeOwn none args with
  | .error outcome => outcome
  | .ok (want, pass) => dispatch host self want pass

/-- A pass takes the last argument that classifies. -/
def lastKind (classify : Arg → Option LfindBackend) (args : List Arg) : Option LfindBackend :=
  args.reverse.findSome? classify

theorem lastKind_append (classify : Arg → Option LfindBackend) (before after : List Arg)
    (target : Arg)
    : lastKind classify (before ++ target :: after)
        = (lastKind classify after).or ((classify target).or (lastKind classify before)) := by
  simp only [lastKind, List.reverse_append, List.reverse_cons, List.append_assoc,
    List.findSome?_append, List.singleton_append, List.findSome?_cons]
  cases classify target <;> rfl

theorem scanFromRight_eq (classify : Arg → Option LfindBackend) {pass : List Arg} {i : Nat}
    (inside : i ≤ pass.length)
    : scanFromRight classify pass i = lastKind classify (pass.take i) := by
  induction i with
  | zero => rfl
  | succ i ih =>
      have last : pass.take (i + 1) = pass.take i ++ [pass.getD i []] := by
        rw [List.take_add_one, List.getD_eq_getElem?_getD, List.getElem?_eq_getElem inside]
        rfl
      rw [scanFromRight, last, lastKind_append, ih (Nat.le_of_succ_le inside)]
      rfl

theorem chooseBackend_eq (host : Host) (pass : List Arg)
    : chooseBackend host pass
        = (lastKind (lfindClassifyPath host) pass).or (lastKind lfindClassifyDataset pass) := by
  simp only [chooseBackend, scanFromRight_eq _ (Nat.le_refl pass.length), List.take_length]

theorem lastKind_eq_none {classify : Arg → Option LfindBackend} {args : List Arg}
    : lastKind classify args = none ↔ ∀ arg ∈ args, classify arg = none := by
  simp [lastKind]

/-- Whatever looks like a dataset is for one backend. -/
theorem lfindClassifyDataset_eq {arg : Arg} {backend : LfindBackend}
    (looks : lfindClassifyDataset arg = some backend)
    : backend = .zfs := by
  unfold lfindClassifyDataset at looks
  grind

/-- No path is for that backend. -/
theorem lfindClassifyPath_ne_zfs {host : Host} {arg : Arg}
    : lfindClassifyPath host arg ≠ some .zfs := by
  unfold lfindClassifyPath
  grind

/-- The backend a target is for, by itself. -/
def targetBackend (host : Host) (target : Arg) : Option LfindBackend :=
  (lfindClassifyPath host target).or (lfindClassifyDataset target)

/-- No other argument decides in the target's place. Behind a target that is a path, the last
other path must be for the same backend; if the target is none, there must be no path at all,
and if it is no dataset either, nothing that looks like one.
-/
def Undisputed (host : Host) (before : List Arg) (target : Arg) (after : List Arg) : Prop :=
  match lfindClassifyPath host target with
  | some backend => ∀ other, lastKind (lfindClassifyPath host) after = some other → other = backend
  | none =>
      (∀ arg ∈ before ++ after, lfindClassifyPath host arg = none)
      ∧ (lfindClassifyDataset target = none →
          ∀ arg ∈ before ++ after, lfindClassifyDataset arg = none)

theorem lastKind_path_ne_zfs (host : Host) (args : List Arg)
    : lastKind (lfindClassifyPath host) args ≠ some .zfs := by
  intro found
  obtain ⟨arg, _, kind⟩ := List.exists_of_findSome?_eq_some found
  exact lfindClassifyPath_ne_zfs kind

theorem lastKind_dataset {args : List Arg} {backend : LfindBackend}
    (found : lastKind lfindClassifyDataset args = some backend)
    : backend = .zfs := by
  obtain ⟨arg, _, kind⟩ := List.exists_of_findSome?_eq_some found
  exact lfindClassifyDataset_eq kind

/-- The passes choose the target's backend exactly if it is undisputed. -/
theorem chooseBackend_target_iff (host : Host) (before : List Arg) (target : Arg)
    (after : List Arg)
    : chooseBackend host (before ++ target :: after) = targetBackend host target
        ↔ Undisputed host before target after := by
  rw [chooseBackend_eq, lastKind_append, lastKind_append, targetBackend, Undisputed]
  cases lfindClassifyPath host target with
  | some backend => cases lastKind (lfindClassifyPath host) after <;> simp
  | none =>
      simp only [List.forall_mem_append, ← lastKind_eq_none, Option.none_or]
      -- a path is never for the backend of the datasets, so it cannot agree with the target
      have disagrees {args : List Arg} {other : LfindBackend}
          (path : lastKind (lfindClassifyPath host) args = some other)
          : some other ≠ lfindClassifyDataset target := by
        intro same
        cases lfindClassifyDataset_eq same.symm
        exact lastKind_path_ne_zfs host args path
      cases pathAfter : lastKind (lfindClassifyPath host) after with
      | some other => simpa using disagrees pathAfter
      | none =>
          cases pathBefore : lastKind (lfindClassifyPath host) before with
          | some other => simpa using disagrees pathBefore
          | none =>
              cases dataset : lfindClassifyDataset target with
              | none => simp [and_comm]
              | some backend =>
                  cases lfindClassifyDataset_eq dataset
                  cases datasetAfter : lastKind lfindClassifyDataset after with
                  | none => simp
                  | some other => simp [lastKind_dataset datasetAfter]

-----------------------------------------------------------------------------------------
-- The argument list
-----------------------------------------------------------------------------------------

/-- The argument is one of the two forms of `--backend`. -/
def namesBackend (arg : Arg) : Bool := arg == backendOption || backendAssign.isPrefixOf arg

/-- What is executed: the backend, its path and its arguments. -/
def Outcome.executed : Outcome → Option (LfindBackend × Arg × List Arg)
  | .exec backend bin argv => some (backend, bin, argv)
  | .listed | .usage _ | .refused _ => none

section Own

variable {args : List Arg} (noBackend : ∀ arg ∈ args, namesBackend arg = false)

include noBackend

/-- Without `--backend` the arguments go on as they are, unless the backends are to be listed. -/
theorem takeOwn_eq (want : Option LfindBackend)
    : takeOwn want args
        = if listBackends ∈ args then .error .listed else .ok (want, args) := by
  induction args with
  | nil => rfl
  | cons arg rest ih =>
      rw [List.forall_mem_cons, namesBackend, Bool.or_eq_false_iff] at noBackend
      obtain ⟨⟨option, assign⟩, later⟩ := noBackend
      rw [takeOwn.eq_def]
      simp only [option, assign, Bool.false_eq_true, if_false, ih later, List.mem_cons]
      by_cases lists : arg = listBackends
      · simp [lists]
      · have other : ¬ listBackends = arg := fun same => lists same.symm
        simp only [beq_iff_eq, lists, if_false, other, false_or]
        split <;> rfl

theorem lfindMain_executed (host : Host) (self : Arg)
    : (lfindMain host self args).executed
        = if listBackends ∈ args then
            none
          else
            (chooseBackend host args).map fun backend =>
              (backend, lfindLocate host self backend.bin, cstr "lfind" :: args) := by
  rw [lfindMain, takeOwn_eq noBackend]
  by_cases lists : listBackends ∈ args
  · rw [if_pos lists, if_pos lists]
    rfl
  · rw [if_neg lists, if_neg lists]
    cases args with
    | nil => rfl
    | cons arg rest =>
        simp only [dispatch, List.isEmpty_cons, Bool.false_and, Bool.false_eq_true, if_false,
          Option.none_or]
        cases chooseBackend host (arg :: rest) with
        | some backend => rfl
        | none =>
            simp only
            split <;> rfl

end Own

/-- The backend executed is the target's, with every argument passed on as it came, exactly if
the target is undisputed. A list that has `--list-backends` in it, be it as the value of an
option, executes nothing.
-/
theorem dispatch_by_target_iff (host : Host) (self : Arg) (before : List Arg) (target : Arg)
    (after : List Arg)
    (noBackend : ∀ arg ∈ before ++ target :: after, namesBackend arg = false)
    : (lfindMain host self (before ++ target :: after)).executed
          = (targetBackend host target).map (fun backend =>
              (backend, lfindLocate host self backend.bin,
                cstr "lfind" :: (before ++ target :: after)))
        ↔ if listBackends ∈ before ++ target :: after then
            targetBackend host target = none
          else
            Undisputed host before target after := by
  rw [lfindMain_executed noBackend]
  by_cases lists : listBackends ∈ before ++ target :: after
  · rw [if_pos lists, if_pos lists, eq_comm, Option.map_eq_none_iff]
  · rw [if_neg lists, if_neg lists, ← chooseBackend_target_iff]
    refine (Option.map_injective fun left right same => ?_).eq_iff
    exact congrArg Prod.fst same

/-- A host with a regular file "report" in the working directory. -/
def hostWithReport : Host where
  stat := fun path => if path == cstr "report" then some .regular else none

theorem dispatch_by_target_alone
    : (lfindMain hostWithReport (cstr "lfind")
          [cstr "--name", cstr "summary", cstr "pool/mdt0"]).executed
        = some (.zfs, cstr "lfind-zfs",
            [cstr "lfind", cstr "--name", cstr "summary", cstr "pool/mdt0"]) := by
  have other := (dispatch_by_target_iff hostWithReport (cstr "lfind")
    [cstr "--name", cstr "summary"] (cstr "pool/mdt0") [] (by decide)).mpr
  exact other ⟨by decide, by decide⟩

/-- The name to look for is also that of a file: the scan goes to the file, not to the dataset
it was asked for.
-/
theorem dispatch_by_filter_value
    : targetBackend hostWithReport (cstr "pool/mdt0") = some .zfs
      ∧ (lfindMain hostWithReport (cstr "lfind")
            [cstr "--name", cstr "report", cstr "pool/mdt0"]).executed
          = some (.ldiskfs, cstr "lfind-ldiskfs",
              [cstr "lfind", cstr "--name", cstr "report", cstr "pool/mdt0"]) := by
  decide

end LfuScan.Front

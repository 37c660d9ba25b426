import RaftKeeper.Store.ChildCounts

/-!
# Versions

The version of a node is the number of times it was written since it was created. A Set or
a Remove that names a version succeeds only on a node with that version, so of those that
name one version of one node at most one succeeds.
-/

namespace RaftKeeper

open Finmap List

def writesSince (history : List Stamped) (path : Bytes) : ℕ :=
  (sinceCreation path history).countP (·.change.writes path)

theorem writesSince_cons (event : Stamped) (history : List Stamped) (path : Bytes) :
    writesSince (event :: history) path = if event.change.creates path then 0
      else writesSince history path + if event.change.writes path then 1 else 0 := by
  rw [writesSince, sinceCreation_cons]
  split
  · rfl
  · rw [countP_cons]
    rfl

def expectedVersion (history : List Stamped) (path : Bytes) : Int32 :=
  Int32.ofNat (writesSince history path)

variable {path : Bytes} {version : Int32} {zxid : Int64} {change : Change} {history : List Stamped}

theorem expectedVersion_cons (isOther : change.creates path = false)
    (unwritten : change.writes path = false) :
    expectedVersion (⟨zxid, change⟩ :: history) path = expectedVersion history path := by
  rw [expectedVersion, writesSince_cons, isOther, unwritten]
  rfl

theorem version_law : Law Stat.version expectedVersion where
  created := by
    simp [expectedVersion, writesSince_cons, Change.creates, CreateRequest.node]
  gained parentNe counts :=
    counts.trans (expectedVersion_cons (Change.creates_of_ne parentNe) rfl).symm
  createdElsewhere isOther _ :=
    expectedVersion_cons (Change.creates_of_ne isOther) rfl
  lost counts := counts.trans (expectedVersion_cons rfl rfl).symm
  removedElsewhere _ := expectedVersion_cons rfl rfl
  written counts := by
    rw [KeeperNode.setData, counts, expectedVersion, expectedVersion, writesSince_cons]
    simp [Change.creates, Change.writes, Int32.ofNat_add]
  writtenElsewhere isOther :=
    expectedVersion_cons rfl (decide_eq_false isOther.symm)
  expired _ counts := counts.trans (expectedVersion_cons rfl rfl).symm
  replaced _ := rfl

theorem version_undoable : Undoable Stat.version where
  ungained _ _ _ _ same := same
  unlost _ _ _ _ same := same

/-- The node, and the version of it, that a change was made for; version -1 stands for any. -/
def Change.expects : Change → Option (Bytes × Int32)
  | written request => if request.version = -1 then none else some (request.path, request.version)
  | removed request => if request.version = -1 then none else some (request.path, request.version)
  | created .. | expired _ => none

/-- What is in the tree was not deleted since it was created. -/
def Alive (history : List Stamped) (path : Bytes) : Prop :=
  ∀ event ∈ sinceCreation path history, event.change.deletes path = false

variable {event : Stamped}

theorem alive_cons (alive : event.change.creates path = false → Alive history path)
    (remains : event.change.deletes path = false) : Alive (event :: history) path := by
  rw [Alive, sinceCreation_cons]
  split
  · nofun
  next isOther =>
    intro other isMember
    rcases mem_cons.mp isMember with rfl | isOlder
    · exact remains
    · exact alive (by simpa using isOther) other isOlder

/-- Every change that names a version was made to a node of that version. -/
def Matched : List Stamped → Prop
  | [] => True
  | event :: older =>
    (∀ path version, event.change.expects = some (path, version) →
      version = expectedVersion older path ∧ Alive older path) ∧ Matched older

/-- The history accounts for the tree. -/
structure VersionSound (history : List Stamped) (tree : DataTree) : Prop where
  lawful : Lawful Stat.version expectedVersion history tree
  alive : ∀ path, path ∈ tree → Alive history path
  matched : Matched history

section

variable {zxid session time : Int64} {before after : StoreState} {history : List Stamped}
  {request : SingleRequest} {change : Option Change}

theorem Operation.alive (operation : Operation zxid session time before request after change)
    (alive : ∀ path, path ∈ before.dataTree → Alive history path)
    (isMember : path ∈ after.dataTree) : Alive (record zxid change.toList history) path := by
  cases operation with
  | nothing => exact alive path isMember
  | setACL _ _ _ _ _ found =>
    rcases mem_insert.mp isMember with rfl | wasMember
    · exact alive _ (mem_of_lookup_eq_some found)
    · exact alive path wasMember
  | create _ _ _ _ _ parentFound _ absent =>
    refine alive_cons (fun isOther => alive path ?_) rfl
    rw [StoreState.addCreated, mem_insert, mem_modify] at isMember
    exact isMember.resolve_left (Ne.symm (of_decide_eq_false isOther))
  | remove _ found _ _ parentFound =>
    rw [StoreState.dropRemoved, mem_erase, mem_modify] at isMember
    exact alive_cons (fun _ => alive path isMember.2) (decide_eq_false (Ne.symm isMember.1))
  | set _ found =>
    refine alive_cons (fun _ => alive path ?_) rfl
    rcases mem_insert.mp isMember with rfl | wasMember
    · exact mem_of_lookup_eq_some found
    · exact wasMember

theorem Operation.versionSound
    (operation : Operation zxid session time before request after change)
    (attached : Attached before.dataTree) (sound : VersionSound history before.dataTree) :
    VersionSound (record zxid change.toList history) after.dataTree := by
  refine ⟨operation.lawful version_law attached sound.lawful,
    fun path => operation.alive sound.alive, ?_⟩
  -- a change that names a version was made to a node that was there, with that version
  have names {path : Bytes} {node : KeeperNode} {version : Int32}
      (found : before.dataTree.lookup path = some node)
      (expected : version = -1 ∨ version = node.stat.version) {other : Bytes} {named : Int32}
      (expects : (if version = -1 then none else some (path, version)) = some (other, named)) :
      named = expectedVersion history other ∧ Alive history other := by
    rcases Option.ite_none_left_eq_some.mp expects with ⟨isNamed, isSame⟩
    cases isSame
    refine ⟨?_, sound.alive path (mem_of_lookup_eq_some found)⟩
    rw [expected.resolve_left isNamed]
    exact sound.lawful path node found
  cases operation with
  | nothing | setACL => exact sound.matched
  | create => exact ⟨nofun, sound.matched⟩
  | remove _ found expected => exact ⟨fun _ _ => names found expected, sound.matched⟩
  | set _ found expected => exact ⟨fun _ _ => names found expected, sound.matched⟩

theorem version_invariant : HistoryInvariant (fun _ => True) VersionSound where
  performed operation ownership sound := operation.versionSound ownership.attached sound
  rolledBack chain _ runs ownership sound := by
    have same := chain.sameView version_undoable (.inl fun _ _ => rfl) ownership runs
    exact ⟨same.lawful sound.lawful,
      fun path isMember => sound.alive path ((same.mem_iff path).mp isMember), sound.matched⟩
  closed ownership sound := by
    refine ⟨(version_law.invariant version_undoable).closed ownership sound.lawful,
      fun path isMember => ?_, nofun, sound.matched⟩
    rw [← lookup_isSome, lookup_dropEphemerals] at isMember
    split at isMember
    · cases isMember
    next remains =>
      rw [Option.isSome_map, lookup_isSome] at isMember
      exact alive_cons (fun _ => sound.alive path isMember) (decide_eq_false remains)

end

variable {newer older : List Stamped}

theorem Matched.of_append (matched : Matched (newer ++ event :: older))
    (expects : event.change.expects = some (path, version)) :
    version = expectedVersion older path ∧ Alive older path := by
  induction newer with
  | nil => exact matched.1 path version expects
  | cons _ _ ih => exact ih matched.2

theorem Change.expects_cases (expects : change.expects = some (path, version)) :
    change.creates path = false ∧ (change.writes path = true ∨ change.deletes path = true) := by
  cases change with
  | created | expired => cases expects
  | written request =>
    cases (Option.ite_none_left_eq_some.mp expects).2
    exact ⟨rfl, .inl (decide_eq_true rfl)⟩
  | removed request =>
    cases (Option.ite_none_left_eq_some.mp expects).2
    exact ⟨rfl, .inr (decide_eq_true rfl)⟩

theorem Matched.exists_creates {middle : List Stamped} {first second : Stamped}
    (matched : Matched (newer ++ second :: (middle ++ first :: older)))
    (firstExpects : first.change.expects = some (path, version))
    (secondExpects : second.change.expects = some (path, version))
    (fits : writesSince (middle ++ first :: older) path < 2 ^ 31) :
    ∃ event ∈ middle, event.change.creates path = true := by
  by_contra none
  have lasts : ∀ event ∈ middle, event.change.creates path = false := by
    intro event isMember
    by_contra creates
    exact none ⟨event, isMember, by simpa using creates⟩
  rcases matched.of_append secondExpects with ⟨isSecond, alive⟩
  have matchedFirst : Matched ((newer ++ second :: middle) ++ first :: older) := by
    simpa using matched
  have isFirst := (matchedFirst.of_append firstExpects).1
  rcases Change.expects_cases firstExpects with ⟨isOther, writes | deletes⟩
  · -- the first of the two has raised the version
    have grows : writesSince older path < writesSince (middle ++ first :: older) path := by
      rw [writesSince, writesSince, sinceCreation_append _ lasts, sinceCreation_cons, isOther,
        if_neg Bool.false_ne_true, countP_append, countP_cons, writes, if_pos rfl]
      omega
    have same := isFirst.symm.trans isSecond
    rw [expectedVersion, expectedVersion] at same
    have sameInt := congrArg Int32.toInt same
    rw [Int32.toInt_ofNat_of_lt (by omega), Int32.toInt_ofNat_of_lt fits] at sameInt
    omega
  · -- the first of the two has deleted the node
    have isMember : first ∈ sinceCreation path (middle ++ first :: older) := by
      rw [sinceCreation_append _ lasts, sinceCreation_cons, isOther, if_neg Bool.false_ne_true]
      exact mem_append_right _ mem_cons_self
    rw [alive first isMember] at deletes
    cases deletes

theorem StoreRequestMultiTxn.step_succeeds {platform : Platform} {session time : Int64}
    {operationType : OperationType} {requests : List SingleRequest} {start after : StoreState}
    {step : StoreState × SingleRequest} {response : Response} {undo : Undo}
    (isWrite : operationType = .write)
    (keeps : rollsBack platform zxid session time operationType requests start = false)
    (isStep : step ∈ steps platform zxid session time operationType requests start)
    (processed : step.1.process platform zxid session time step.2 =
      .returned (after, response, undo)) : response.error = .zok := by
  induction requests generalizing start with
  | nil => cases isStep
  | cons request rest ih =>
    simp only [steps] at isStep
    rcases mem_cons.mp isStep with rfl | isLater
    · by_contra isError
      simp only [rollsBack, processed, if_pos (And.intro isError isWrite)] at keeps
      cases keeps
    · cases here : start.process platform zxid session time request with
      | crashed | blocked | thrown =>
        simp only [here] at isLater
        cases isLater
      | returned value =>
        rcases value with ⟨middle, other, otherUndo⟩
        simp only [rollsBack, here] at isLater keeps
        split at isLater
        · cases isLater
        next succeeds =>
          rw [if_neg succeeds] at keeps
          exact ih keeps isLater

theorem StoreState.check_zok {state : StoreState} {request : CheckRequest}
    (isCheck : request.notExists = false) (isNamed : request.version ≠ -1)
    (succeeds : (state.check request).error = .zok) :
    ∃ node, state.dataTree.lookup request.path = some node ∧
      node.stat.version = request.version := by
  simp only [check, isCheck, Bool.false_eq_true, if_false] at succeeds
  cases found : state.dataTree.lookup request.path with
  | none => simp [found] at succeeds
  | some node =>
    refine ⟨node, rfl, ?_⟩
    simp only [found] at succeeds
    split at succeeds
    next isVersion =>
      rw [Bool.or_eq_true, decide_eq_true_eq, decide_eq_true_eq] at isVersion
      exact (isVersion.resolve_left isNamed).symm
    next => cases succeeds

namespace Recorded

variable {platform : Platform} {start : KeeperStore} {recorded : Recorded}

theorem reachable_versionSound (started : start.Started platform)
    (reached : ReachableBy (next platform) (fun _ call => call.Served) { store := start }
      recorded) :
    VersionSound recorded.history recorded.store.dataTree := by
  refine reachable_invariant version_invariant (fun _ _ served => ⟨served, trivial⟩) started
    ⟨fun path node found => ?_, nofun, trivial⟩ reached
  rw [started.stat_eq found]
  rfl

theorem check_observes {store : KeeperStore} {call : Call} {txn : StoreRequestMultiTxn}
    {state : StoreState} {request : CheckRequest}
    (executed : store.executes call = some (.multi txn)) (isWrite : txn.operationType = .write)
    (keeps : store.rollsBack platform call = false)
    (isStep : (state, .check request) ∈ store.steps platform call)
    (isCheck : request.notExists = false) (isNamed : request.version ≠ -1) :
    ∃ node, state.dataTree.lookup request.path = some node ∧
      node.stat.version = request.version := by
  simp only [KeeperStore.steps, KeeperStore.rollsBack, executed] at isStep keeps
  apply state.check_zok isCheck isNamed
  exact StoreRequestMultiTxn.step_succeeds isWrite keeps isStep rfl

/--
The version of a node counts the Sets since it was created; of the Sets and Removes that
name one version of one incarnation of a node at most one succeeds; and a successful Multi
that checks a version finds it in the state that its earlier sub-requests have left.
-/
theorem versions_count_writes (started : start.Started platform)
    (reached : ReachableBy (next platform) (fun _ call => call.Served) { store := start }
      recorded) :
    (∀ path node, recorded.store.dataTree.lookup path = some node →
      writesSince recorded.history path < 2 ^ 31 →
      node.stat.version.toInt = writesSince recorded.history path) ∧
    (∀ newer second middle first older path version,
      recorded.history = newer ++ second :: (middle ++ first :: older) →
      first.change.expects = some (path, version) → second.change.expects = some (path, version) →
      writesSince (middle ++ first :: older) path < 2 ^ 31 →
      ∃ event ∈ middle, event.change.creates path = true) ∧
    ∀ call txn state request,
      recorded.store.executes call = some (.multi txn) → txn.operationType = .write →
      recorded.store.rollsBack platform call = false →
      (state, .check request) ∈ recorded.store.steps platform call →
      request.notExists = false → request.version ≠ -1 →
      ∃ node, state.dataTree.lookup request.path = some node ∧
        node.stat.version = request.version := by
  have sound := reachable_versionSound started reached
  refine ⟨fun path node found fits => ?_, ?_, ?_⟩
  · rw [sound.lawful path node found, expectedVersion, Int32.toInt_ofNat_of_lt fits]
  · intro newer second middle first older path version splits firstExpects secondExpects fits
    have matched := sound.matched
    rw [splits] at matched
    exact matched.exists_creates firstExpects secondExpects fits
  · intro call txn state request executed isWrite keeps isStep isCheck isNamed
    exact check_observes executed isWrite keeps isStep isCheck isNamed

def versionRun : List Call :=
  [.sampleSession, .sample 1 (.single (.create { path := ascii "/x" })),
    .sample 1 (.single (.set { path := ascii "/x", version := 0 })),
    .sample 1 (.single (.set { path := ascii "/x", version := 0 })),
    .sample 1 (.multi .write [.single (.set { path := ascii "/x", version := 1 }),
      .single (.check { path := ascii "/x", version := 1 })]),
    .sample 1 (.multi .write [.single (.set { path := ascii "/x", version := 1 }),
      .single (.check { path := ascii "/x", version := 2 })])]

theorem versions_count_writes_versionRun :
    ∃ recorded, ReachableBy (next .sample) (fun _ call => call.Served) { store := .sample }
        recorded ∧
      ∃ node, recorded.store.dataTree.lookup (ascii "/x") = some node ∧
        writesSince recorded.history (ascii "/x") = 2 ∧ node.stat.version.toInt = 2 := by
  refine exists_reached_of (fun recorded => ∃ node,
      recorded.store.dataTree.lookup (ascii "/x") = some node ∧
      writesSince recorded.history (ascii "/x") = 2) versionRun (by decide +kernel) ?_
  rintro recorded reached ⟨node, found, writes⟩
  refine ⟨node, found, writes, ?_⟩
  have counts := (versions_count_writes KeeperStore.started_sample reached).1 _ node found
  rw [writes] at counts
  exact counts (by decide)

end Recorded

end RaftKeeper

import RaftKeeper.Store.ChildCounts

/-!
# The stamps of a node

`czxid`, `mzxid` and `pzxid` name the requests that have created the node, written it, and created
or deleted a child of it. The nodes of a session that is closed are deleted without a new `pzxid`
for their parents.
-/

namespace RaftKeeper

open Bool Change Int64 KeeperStore List

/-- The zxid of the latest event of this kind; zero stands for the start. -/
def latestZxid (selects : Change → Bool) (history : List Stamped) : Int64 :=
  ((history.find? fun event => selects event.change).map (·.zxid)).getD 0

theorem latestZxid_cons (selects : Change → Bool) (zxid : Int64) (change : Change)
    (history : List Stamped) :
    latestZxid selects (⟨zxid, change⟩ :: history) =
      if selects change then zxid else latestZxid selects history := by
  rw [latestZxid, find?_cons]
  cases selects change <;> rfl

variable {change : Change} {selects : Change → Bool}

theorem latestZxid_of_selects (isSelected : selects change = true) (zxid : Int64)
    (history : List Stamped) :
    latestZxid selects (⟨zxid, change⟩ :: history) = zxid := by
  rw [latestZxid_cons, if_pos isSelected]

theorem latestZxid_of_not_selects (notSelected : selects change = false) (zxid : Int64)
    (history : List Stamped) :
    latestZxid selects (⟨zxid, change⟩ :: history) = latestZxid selects history := by
  rw [latestZxid_cons, notSelected, if_neg Bool.false_ne_true]

theorem latestZxid_cases (selects : Change → Bool) (history : List Stamped) :
    (latestZxid selects history = 0 ∧ ∀ event ∈ history, selects event.change = false) ∨
      ∃ event ∈ history, latestZxid selects history = event.zxid := by
  cases found : history.find? fun event => selects event.change with
  | none =>
    refine .inl ⟨by rw [latestZxid, found]; rfl, fun event isMember => ?_⟩
    simpa using find?_eq_none.mp found event isMember
  | some event => exact .inr ⟨event, mem_of_find?_eq_some found, by rw [latestZxid, found]; rfl⟩

theorem latestZxid_record {changes : List Change} (isMember : change ∈ changes)
    (isSelected : selects change = true) (zxid : Int64) (history : List Stamped) :
    latestZxid selects (record zxid changes history) = zxid := by
  induction changes using reverseRecOn with
  | nil => cases isMember
  | append_singleton earlier last ih =>
    rw [record_append]
    show latestZxid selects (⟨zxid, last⟩ :: record zxid earlier history) = zxid
    by_cases isLatest : selects last = true
    · exact latestZxid_of_selects isLatest zxid _
    · rw [latestZxid_of_not_selects (eq_false_iff.mpr isLatest)]
      apply ih
      rcases mem_append.mp isMember with isEarlier | isLast
      · exact isEarlier
      · rw [← mem_singleton.mp isLast] at isLatest
        exact absurd isSelected isLatest

/-- The change creates the node or writes it. -/
def Change.modifies (path : Bytes) (change : Change) : Bool :=
  change.creates path || change.writes path

/-- The change creates or deletes a child of the node, or creates the node itself. -/
def Change.relates (path : Bytes) : Change → Bool
  | created _ own => own = path || getParentPath own = path
  | removed request => getParentPath request.path = path
  | written _ | expired _ => false

theorem Change.relates_of_creates {path : Bytes} (creates : change.creates path = true) :
    change.relates path = true := by
  cases change with
  | created request own => simp [relates, of_decide_eq_true creates]
  | written | removed | expired => cases creates

def stamps (stat : Stat) : Int64 × Int64 × Int64 := (stat.czxid, stat.mzxid, stat.pzxid)

def expectedStamps (history : List Stamped) (path : Bytes) : Int64 × Int64 × Int64 :=
  (latestZxid (creates path) history, latestZxid (modifies path) history,
    latestZxid (relates path) history)

theorem expectedStamps_cons (zxid : Int64) (change : Change) (history : List Stamped)
    (path : Bytes) :
    expectedStamps (⟨zxid, change⟩ :: history) path =
      (if change.creates path then zxid else (expectedStamps history path).1,
        if change.modifies path then zxid else (expectedStamps history path).2.1,
        if change.relates path then zxid else (expectedStamps history path).2.2) := by
  simp only [expectedStamps, latestZxid_cons]

theorem stamps_law : Law stamps expectedStamps where
  created := by
    simp [stamps, expectedStamps_cons, modifies, relates, creates, CreateRequest.node]
  gained parentNe isStamp := by
    rw [expectedStamps_cons, ← isStamp]
    simp [stamps, modifies, relates, creates, writes, KeeperNode.gainChild, parentNe.symm]
  createdElsewhere isOther notParent := by
    simp [expectedStamps_cons, modifies, relates, creates, writes, isOther.symm, notParent.symm]
  lost isStamp := by
    rw [expectedStamps_cons, ← isStamp]
    simp [stamps, modifies, relates, creates, writes, KeeperNode.loseChild]
  removedElsewhere notParent := by
    simp [expectedStamps_cons, modifies, relates, creates, writes, notParent.symm]
  written isStamp := by
    rw [expectedStamps_cons, ← isStamp]
    simp [stamps, modifies, relates, creates, writes, KeeperNode.setData]
  writtenElsewhere isOther := by
    simp [expectedStamps_cons, modifies, relates, creates, writes, isOther.symm]
  expired _ isStamp := isStamp
  replaced _ := rfl

theorem stamps_undoable : Undoable stamps where
  ungained _ _ _ _ same := by simp_all [stamps, KeeperNode.gainChild, KeeperNode.ungainChild]
  unlost _ _ _ _ same := by simp_all [stamps, KeeperNode.loseChild, KeeperNode.unloseChild]

theorem known_law (start : DataTree) : Law (fun _ => true) fun history path =>
    (start.lookup path).isSome || history.any (·.change.creates path) where
  created := by simp [creates]
  gained parentNe isKnown := by
    rw [isKnown, any_cons, creates_of_ne parentNe, Bool.false_or]
  createdElsewhere isOther _ := by
    rw [any_cons, creates_of_ne isOther, Bool.false_or]
  lost isKnown := isKnown
  removedElsewhere _ := rfl
  written isKnown := isKnown
  writtenElsewhere _ := rfl
  expired _ isKnown := isKnown
  replaced _ := rfl

section

variable {platform : Platform} {replica later : Replicated} {entry : LogEntry}
  {reply : Option Reply}

theorem Replicated.apply_zxid (applies : replica.apply platform entry = some (later, reply)) :
    (later.zxid = replica.zxid ∨ later.zxid = replica.zxid + 1) ∧
      ∀ answer, reply = some answer → answer.zxid = replica.zxid ∧
        (entry.request.shouldIncreaseZxid → later.zxid = replica.zxid + 1) := by
  cases applied_of_apply applies with
  | close | newSession | updateSession =>
    refine ⟨.inr rfl, ?_⟩
    rintro answer ⟨⟩
    exact ⟨rfl, fun _ => rfl⟩
  | returned =>
    refine ⟨?_, ?_⟩
    · dsimp only
      split
      · exact .inr rfl
      · exact .inl rfl
    · rintro answer ⟨⟩
      exact ⟨rfl, fun increases => if_pos increases⟩
  | thrown | dropped => exact ⟨.inl rfl, nofun⟩

end

namespace KeeperStore

variable {platform : Platform} {store after : KeeperStore} {call : Call}

theorem changes_of_not_increases (keeps : call.request.request.shouldIncreaseZxid = false) :
    store.changes platform call = [] := by
  have reports {request : SingleRequest} (isRequest : call.request.request = .single request)
      (notClose : call.request.request ≠ .single .close)
      (made : StoreRequest.make (.single request) = .ok (.single request))
      (silent : ∀ state response, request.change state response = none) :
      store.changes platform call = [] := by
    cases executed : store.executes call with
    | none => exact (changes_of_executes_none executed notClose).1
    | some storeRequest =>
      have isMade := make_of_executes executed
      rw [isRequest, made] at isMade
      cases isMade
      rw [changes]
      split
      next isClose => exact absurd isClose notClose
      all_goals
        simp only [executed, StoreRequest.changes]
        split
        · rw [silent]
          rfl
        all_goals rfl
  cases isRequest : call.request.request with
  | multi => simp [isRequest, Request.shouldIncreaseZxid] at keeps
  | single request =>
    cases request with
    | get | setWatches | «exists» | auth | heartbeat | list =>
      exact reports isRequest (by simp [isRequest]) rfl fun _ _ => rfl
    | _ => simp [isRequest, Request.shouldIncreaseZxid] at keeps

theorem changes_of_thrown {exception : Exception} {state : StoreState} (served : call.Served)
    (notClose : call.request.request ≠ .single .close)
    (throws : store.respond platform call = .thrown exception state) :
    store.changes platform call = [] := by
  cases executed : store.executes call with
  | none => exact (changes_of_executes_none executed notClose).1
  | some storeRequest =>
    rw [(changes_of_executes served executed notClose).1]
    have responds := respond_of_executes executed platform store.zxid store.sessionManager
    have isThrown := responds.symm.trans throws
    cases storeRequest with
    | single request =>
      rw [StoreRequest.changes]
      split
      next returns =>
        rw [StoreRequest.process, returns] at isThrown
        cases isThrown
      all_goals rfl
    | multi txn =>
      rw [StoreRequest.process] at isThrown
      rw [StoreRequest.changes]
      split at isThrown
      · cases isThrown
      next looped =>
        have loops := StoreRequestMultiTxn.loops_of_final (by rw [looped]; rfl)
        rw [loops.rolledBack_of_thrown looped, if_pos rfl]
      next => cases isThrown
      next => cases isThrown

theorem zxid_of_changes (served : call.Served) (moves : store.next platform call = some after)
    (changes : store.changes platform call ≠ []) : after.zxid = store.zxid + 1 := by
  have increases : call.request.request.shouldIncreaseZxid = true := by
    by_contra keeps
    exact changes (changes_of_not_increases (by simpa using keeps))
  rcases processRequest_refines served after moves with ⟨reply, applies, _⟩
  have applied := Replicated.applied_of_apply applies
  have sameZxid : after.zxid = after.replicated.zxid := rfl
  rw [sameZxid]
  generalize after.replicated = later at applied
  cases applied with
  | close | newSession | updateSession => rfl
  | returned => exact if_pos increases
  | thrown notClose notOpening isAlive throws =>
    rw [← respond_replicated served] at throws
    exact absurd (changes_of_thrown served notClose throws) changes
  | dropped notClose notOpening isDead =>
    exact absurd (changes_of_executes_none (executes_of_dead served isDead) notClose).1 changes

end KeeperStore

/-- The change creates or deletes children of the node. -/
def Change.touchesChildren (path : Bytes) (change : Change) : Bool :=
  change.childrenCreated path + change.childrenDeleted path ≠ 0

def Change.isExpired : Change → Bool
  | expired _ => true
  | created .. | written _ | removed _ => false

/-- The last event since the creation of a node that has changed its children. -/
def lastChildChange (history : List Stamped) (path : Bytes) : Option Stamped :=
  (sinceCreation path history).find? fun event => event.change.touchesChildren path

theorem lastChildChange_cons (event : Stamped) (history : List Stamped) (path : Bytes) :
    lastChildChange (event :: history) path = if event.change.creates path then none
      else if event.change.touchesChildren path then some event
      else lastChildChange history path := by
  rw [lastChildChange, sinceCreation_cons]
  split
  · rfl
  · rw [find?_cons]
    cases event.change.touchesChildren path <;> rfl

variable {path : Bytes}

theorem Change.relates_eq (isOther : change.creates path = false)
    (notExpired : change.isExpired = false ∨ change.touchesChildren path = false) :
    change.relates path = change.touchesChildren path := by
  cases change with
  | created request own =>
    have ownNe : own ≠ path := of_decide_eq_false isOther
    by_cases isParent : getParentPath own = path <;>
      simp [relates, touchesChildren, childrenCreated, childrenDeleted, ownNe, isParent]
  | written => rfl
  | removed request =>
    by_cases isParent : getParentPath request.path = path <;>
      simp [relates, touchesChildren, childrenCreated, childrenDeleted, isParent]
  | expired paths =>
    rcases notExpired with isNot | isNot
    · cases isNot
    · rw [isNot]
      rfl

theorem latestZxid_relates {history : List Stamped}
    (notExpired : ∀ event, lastChildChange history path = some event →
      event.change.isExpired = false) :
    latestZxid (relates path) history = match lastChildChange history path with
      | some event => event.zxid
      | none => latestZxid (creates path) history := by
  induction history with
  | nil => rfl
  | cons event older ih =>
    rcases event with ⟨zxid, change⟩
    rw [lastChildChange_cons] at notExpired
    rw [lastChildChange_cons]
    dsimp only at notExpired ⊢
    by_cases creates : change.creates path = true
    · rw [if_pos creates, latestZxid_of_selects (relates_of_creates creates),
        latestZxid_of_selects creates]
    · have isOther : change.creates path = false := by simpa using creates
      rw [if_neg creates] at notExpired ⊢
      rw [latestZxid_of_not_selects isOther]
      by_cases touches : change.touchesChildren path = true
      · rw [if_pos touches] at notExpired ⊢
        apply latestZxid_of_selects
        rw [relates_eq isOther (.inl (notExpired _ rfl)), touches]
      · have untouched : change.touchesChildren path = false := by simpa using touches
        rw [if_neg touches] at notExpired ⊢
        rw [latestZxid_of_not_selects]
        · exact ih notExpired
        · rw [relates_eq isOther (.inr untouched), untouched]

namespace Recorded

variable {platform : Platform} {start : KeeperStore} {recorded : Recorded}
  {allowed : Recorded → Call → Prop} {path : Bytes} {node : KeeperNode}

theorem reachable_stamps (served : ∀ recorded call, allowed recorded call → call.Served)
    (started : start.Started platform)
    (reached : ReachableBy (next platform) allowed { store := start } recorded)
    (found : recorded.store.dataTree.lookup path = some node) :
    node.stat.czxid = latestZxid (creates path) recorded.history ∧
      node.stat.mzxid = latestZxid (modifies path) recorded.history ∧
      node.stat.pzxid = latestZxid (relates path) recorded.history := by
  have isStamp := reachable_lawful stamps_law stamps_undoable (fun _ _ => rfl) served
    (.inl fun _ _ => rfl) started reached path node found
  simpa [stamps, expectedStamps] using isStamp

theorem exists_creates (served : ∀ recorded call, allowed recorded call → call.Served)
    (started : start.Started platform)
    (reached : ReachableBy (next platform) allowed { store := start } recorded)
    (found : recorded.store.dataTree.lookup path = some node)
    (isNew : start.dataTree.lookup path = none) :
    ∃ event ∈ recorded.history, event.change.creates path = true := by
  have undoable : Undoable fun _ : Stat => true := ⟨fun _ _ _ _ _ => rfl, fun _ _ _ _ _ => rfl⟩
  have initially : ∀ path, path ∈ start.dataTree →
      true = ((start.dataTree.lookup path).isSome || false) := by
    intro path isMember
    rw [Finmap.lookup_isSome.mpr isMember]
    rfl
  have known := reachable_lawful (known_law start.dataTree) undoable initially served
    (.inl fun _ _ => rfl) started reached path node found
  dsimp only at known
  rw [isNew, Option.isSome_none, Bool.false_or] at known
  exact any_eq_true.mp known.symm

/--
Where the last request that has created or deleted a child of a node is not the end of a
session, `pzxid` is the zxid of that request, and `czxid` if there was none.
-/
theorem pzxid_of_lastChildChange (started : start.Started platform)
    (reached : ReachableBy (next platform) (fun _ call => call.Served) { store := start } recorded)
    {path : Bytes} {node : KeeperNode} (found : recorded.store.dataTree.lookup path = some node)
    (notExpired : ∀ event, lastChildChange recorded.history path = some event →
      event.change.isExpired = false) :
    node.stat.pzxid = match lastChildChange recorded.history path with
      | some event => event.zxid
      | none => node.stat.czxid := by
  rcases reachable_stamps (fun _ _ served => served) started reached found with
    ⟨isCzxid, _, isPzxid⟩
  rw [isPzxid, isCzxid]
  exact latestZxid_relates notExpired

def pzxidRun : List Call :=
  [.sampleSession, .sample 1 (.single (.create { path := ascii "/x" })),
    .sample 1 (.single (.create { path := ascii "/x/a" })),
    .sample 1 (.multi .write [.single (.create { path := ascii "/x/b" }),
      .single (.remove { path := ascii "/x/a" })]),
    .sample 1 (.multi .write [.single (.remove { path := ascii "/x/b" }),
      .single (.check { path := ascii "/y" })]),
    .sample 1 (.single .close)]

theorem pzxid_of_lastChildChange_pzxidRun :
    ∃ recorded, ReachableBy (next .sample) (fun _ call => call.Served) { store := .sample }
        recorded ∧
      ∃ node, recorded.store.dataTree.lookup (ascii "/x") = some node ∧
        (lastChildChange recorded.history (ascii "/x")).map (·.zxid) = some 3 ∧
        node.stat.pzxid = 3 := by
  refine exists_reached_of (fun recorded => ∃ node,
      recorded.store.dataTree.lookup (ascii "/x") = some node ∧
      ∃ event, lastChildChange recorded.history (ascii "/x") = some event ∧
        event.zxid = 3 ∧ event.change.isExpired = false) pzxidRun (by decide +kernel) ?_
  rintro recorded reached ⟨node, found, event, isLast, isZxid, isPerformed⟩
  refine ⟨node, found, by rw [isLast, ← isZxid]; rfl, ?_⟩
  have notExpired : ∀ other, lastChildChange recorded.history (ascii "/x") = some other →
      other.change.isExpired = false := by
    intro other isOther
    cases isLast.symm.trans isOther
    exact isPerformed
  have isStamp := pzxid_of_lastChildChange started_sample reached found notExpired
  rw [isLast] at isStamp
  exact isStamp.trans isZxid

def expiredChildRun : List Call :=
  [.sampleSession, .sample 1 (.single (.create { path := ascii "/x" })),
    .sample 1 (.single (.create { path := ascii "/x/a", isEphemeral := true })),
    .sample 1 (.single .close)]

/-- The parent of a node that has expired keeps the `pzxid` of the request before. -/
theorem expiredChild_keeps_pzxid :
    ∃ recorded, ReachableBy (next .sample) (fun _ call => call.Served) { store := .sample }
        recorded ∧
      (recorded.store.dataTree.lookup (ascii "/x")).map (·.stat.pzxid) = some 2 ∧
      (lastChildChange recorded.history (ascii "/x")).map (·.zxid) = some 3 := by
  exact exists_reached expiredChildRun (by decide +kernel)

end Recorded

theorem toInt_succ {zxid : Int64} (notLast : zxid ≠ maxValue) :
    (zxid + 1).toInt = zxid.toInt + 1 := by
  have isBelow := zxid.toInt_lt
  have isAbove := zxid.le_toInt
  have isLess : zxid.toInt ≠ 2 ^ 63 - 1 := by
    intro isLast
    apply notLast
    apply toInt.inj
    rw [isLast]
    rfl
  rw [toInt_add, toInt_one, Int.bmod_eq_of_le] <;> omega

/-- Every event has a zxid that was taken, and a later one has no smaller zxid. -/
structure Ordered (zxid : Int64) (history : List Stamped) : Prop where
  nonneg : 0 ≤ zxid
  below : ∀ event ∈ history, 0 ≤ event.zxid ∧ event.zxid < zxid
  sorted : history.Pairwise fun newer older => older.zxid ≤ newer.zxid

namespace Ordered

variable {zxid : Int64} {history : List Stamped}

theorem advance (ordered : Ordered zxid history) (notLast : zxid ≠ maxValue) :
    Ordered (zxid + 1) history := by
  have isNext := toInt_succ notLast
  refine ⟨?_, fun event isMember => ?_, ordered.sorted⟩
  · have nonneg := le_iff_toInt_le.mp ordered.nonneg
    rw [le_iff_toInt_le]
    omega
  · rcases ordered.below event isMember with ⟨nonneg, isBelow⟩
    refine ⟨nonneg, ?_⟩
    rw [lt_iff_toInt_lt] at isBelow ⊢
    omega

theorem record (ordered : Ordered zxid history) (notLast : zxid ≠ maxValue)
    (changes : List Change) : Ordered (zxid + 1) (record zxid changes history) := by
  have later := ordered.advance notLast
  have isNew {event : Stamped} (isMember : event ∈ (changes.map (Stamped.mk zxid)).reverse) :
      event.zxid = zxid := by
    rcases mem_map.mp (mem_reverse.mp isMember) with ⟨change, _, rfl⟩
    rfl
  refine ⟨later.nonneg, fun event isMember => ?_, ?_⟩
  · rcases mem_append.mp isMember with isLast | isOlder
    · rw [isNew isLast]
      refine ⟨ordered.nonneg, ?_⟩
      rw [lt_iff_toInt_lt, toInt_succ notLast]
      omega
    · exact later.below event isOlder
  · rw [RaftKeeper.record, pairwise_append]
    refine ⟨?_, ordered.sorted, fun newer isLast older isOlder => ?_⟩
    · apply Pairwise.imp_of_mem (R := fun _ _ => True)
      · intro newer older isNewer isOlder _
        rw [isNew isNewer, isNew isOlder]
        exact Int64.le_refl zxid
      · exact pairwise_of_forall fun _ _ => trivial
    · rw [isNew isLast]
      exact Int64.le_of_lt (ordered.below older isOlder).2

theorem latestZxid_le (ordered : Ordered zxid history) {narrow wide : Change → Bool}
    (widens : ∀ change, narrow change = true → wide change = true) :
    latestZxid narrow history ≤ latestZxid wide history := by
  have below := ordered.below
  have sorted := ordered.sorted
  clear ordered
  induction history with
  | nil => exact Int64.le_refl 0
  | cons event older ih =>
    rcases event with ⟨zxid, change⟩
    rcases pairwise_cons.mp sorted with ⟨isLatest, olderSorted⟩
    have olderBelow := fun other isOlder => below other (mem_cons_of_mem _ isOlder)
    by_cases isNarrow : narrow change = true
    · rw [latestZxid_of_selects isNarrow, latestZxid_of_selects (widens change isNarrow)]
      exact Int64.le_refl zxid
    · rw [latestZxid_of_not_selects (eq_false_iff.mpr isNarrow), latestZxid_cons]
      split
      · rcases latestZxid_cases narrow older with ⟨isStart, _⟩ | ⟨other, isOlder, isStamp⟩
        · rw [isStart]
          exact (below _ mem_cons_self).1
        · rw [isStamp]
          exact isLatest other isOlder
      · exact ih olderBelow olderSorted

theorem latestZxid_lt (ordered : Ordered zxid history) {selects : Change → Bool} {event : Stamped}
    (isMember : event ∈ history) (isSelected : selects event.change = true) :
    latestZxid selects history < zxid := by
  rcases latestZxid_cases selects history with ⟨_, none⟩ | ⟨other, isOther, isStamp⟩
  · rw [none event isMember] at isSelected
    cases isSelected
  · rw [isStamp]
    exact (ordered.below other isOther).2

end Ordered

theorem Change.relates_of_touches (touches : change.touchesChildren path = true)
    (notExpired : change.isExpired = false) :
    change.relates path = true := by
  cases creates : change.creates path with
  | true => exact relates_of_creates creates
  | false => rw [relates_eq creates (.inl notExpired), touches]

namespace Recorded

variable {platform : Platform} {start : KeeperStore} {recorded after later : Recorded} {call : Call}

/-- A committed request, while there is a zxid after the one that it takes. -/
def countsZxid (recorded : Recorded) (call : Call) : Prop :=
  call.Served ∧ recorded.store.zxid ≠ maxValue

instance (recorded : Recorded) (call : Call) : Decidable (recorded.countsZxid call) :=
  inferInstanceAs (Decidable (_ ∧ _))

/-- A call that is made, and the reply that the session gets. -/
structure Answers (platform : Platform) (recorded : Recorded) (call : Call) (after : Recorded)
    (reply : Reply) : Prop where
  counted : recorded.countsZxid call
  answered : call.ignoreResponse = false
  moves : recorded.next platform call = some after
  replies : (recorded.store.processRequest platform call).reply = some reply

variable {reply : Reply}

theorem Answers.zxid (answers : Answers platform recorded call after reply) :
    reply.zxid = recorded.store.zxid ∧
      (call.request.request.shouldIncreaseZxid → after.store.zxid = recorded.store.zxid + 1) := by
  rcases processRequest_refines answers.counted.1 after.store
    (next_store answers.moves).1 with ⟨other, applies, sameReply⟩
  have replies := answers.replies
  rw [sameReply answers.answered] at replies
  exact (Replicated.apply_zxid applies).2 reply replies

theorem zxid_next_cases (served : call.Served) (moves : recorded.next platform call = some after) :
    after.store.zxid = recorded.store.zxid ∨ after.store.zxid = recorded.store.zxid + 1 := by
  rcases processRequest_refines served after.store (next_store moves).1 with ⟨reply, applies, _⟩
  exact (Replicated.apply_zxid applies).1

theorem zxid_next (counted : recorded.countsZxid call)
    (moves : recorded.next platform call = some after) :
    recorded.store.zxid ≤ after.store.zxid := by
  rw [le_iff_toInt_le]
  rcases zxid_next_cases counted.1 moves with isSame | isNext
  · rw [isSame]
  · rw [isNext, toInt_succ counted.2]
    omega

theorem ordered_next (ordered : Ordered recorded.store.zxid recorded.history)
    (counted : recorded.countsZxid call) (moves : recorded.next platform call = some after) :
    Ordered after.store.zxid after.history := by
  rcases next_store moves with ⟨movesStore, isHistory⟩
  rw [isHistory]
  by_cases changes : recorded.store.changes platform call = []
  · rw [changes, record_nil]
    rcases zxid_next_cases counted.1 moves with isSame | isNext
    · rw [isSame]
      exact ordered
    · rw [isNext]
      exact ordered.advance counted.2
  · rw [zxid_of_changes counted.1 movesStore changes]
    exact ordered.record counted.2 _

theorem reachable_ordered (started : start.Started platform)
    (reached : ReachableBy (next platform) countsZxid { store := start } recorded) :
    Ordered recorded.store.zxid recorded.history := by
  refine reached.invariant (fun recorded => Ordered recorded.store.zxid recorded.history) ?_
    fun ordered counted moves => ordered_next ordered counted moves
  rcases started with ⟨interval, digest, starts⟩
  rcases Option.map_eq_some_iff.mp starts with ⟨tree, _, rfl⟩
  exact ⟨Int64.le_refl 0, nofun, .nil⟩

theorem Answers.zxid_lt {laterReply : Reply} {laterCall : Call} {last : Recorded}
    (answers : Answers platform recorded call after reply)
    (increases : call.request.request.shouldIncreaseZxid = true)
    (reachedLater : ReachableBy (next platform) countsZxid after later)
    (laterAnswers : Answers platform later laterCall last laterReply) :
    reply.zxid < laterReply.zxid := by
  have isLater := reachedLater.invariant (fun later => after.store.zxid ≤ later.store.zxid)
    (Int64.le_refl _) fun isLater counted moves => Int64.le_trans isLater (zxid_next counted moves)
  rw [le_iff_toInt_le, answers.zxid.2 increases, toInt_succ answers.counted.2] at isLater
  rw [lt_iff_toInt_lt, answers.zxid.1, laterAnswers.zxid.1]
  omega

/--
Replies to requests that take a zxid have growing zxids. The nodes that a request creates or
writes carry the zxid of its reply, and so does the parent of a node that it creates or
removes, unless the request is the end of a session. No stamp of a node is earlier than its
`czxid`, and but for those of the nodes of the start all are zxids that were taken.
-/
theorem stamps_in_order (started : start.Started platform)
    (reached : ReachableBy (next platform) countsZxid { store := start } recorded) :
    (∀ call after reply later laterCall last laterReply,
      Answers platform recorded call after reply →
      call.request.request.shouldIncreaseZxid = true →
      ReachableBy (next platform) countsZxid after later →
      Answers platform later laterCall last laterReply → reply.zxid < laterReply.zxid) ∧
    (∀ call after reply path node change, Answers platform recorded call after reply →
      after.store.dataTree.lookup path = some node →
      change ∈ recorded.store.changes platform call →
      (change.creates path = true → node.stat.czxid = reply.zxid) ∧
      (change.creates path = true ∨ change.writes path = true → node.stat.mzxid = reply.zxid) ∧
      (change.touchesChildren path = true → change.isExpired = false →
        node.stat.pzxid = reply.zxid)) ∧
    ∀ path node, recorded.store.dataTree.lookup path = some node →
      node.stat.czxid ≤ node.stat.mzxid ∧ node.stat.czxid ≤ node.stat.pzxid ∧
      (start.dataTree.lookup path = none →
        node.stat.czxid < recorded.store.zxid ∧ node.stat.mzxid < recorded.store.zxid ∧
        node.stat.pzxid < recorded.store.zxid) := by
  have served : ∀ recorded call, countsZxid recorded call → call.Served := fun _ _ meets => meets.1
  refine ⟨?_, ?_, ?_⟩
  · intro call after reply later laterCall last laterReply answers increases reachedLater
      laterAnswers
    exact answers.zxid_lt increases reachedLater laterAnswers
  · intro call after reply path node change answers found isMember
    rcases reachable_stamps served started (reached.step answers.counted answers.moves) found with
      ⟨isCzxid, isMzxid, isPzxid⟩
    rw [isCzxid, isMzxid, isPzxid, answers.zxid.1, (next_store answers.moves).2]
    refine ⟨fun creates => ?_, fun modifies => ?_, fun touches notExpired => ?_⟩
    · exact latestZxid_record isMember creates _ _
    · apply latestZxid_record isMember
      rw [Change.modifies, or_eq_true]
      exact modifies
    · exact latestZxid_record isMember (relates_of_touches touches notExpired) _ _
  · intro path node found
    have ordered := reachable_ordered started reached
    rcases reachable_stamps served started reached found with ⟨isCzxid, isMzxid, isPzxid⟩
    have modifies (change : Change) (creates : change.creates path = true) :
        change.modifies path = true := by
      rw [modifies, creates, Bool.true_or]
    rw [isCzxid, isMzxid, isPzxid]
    refine ⟨ordered.latestZxid_le modifies,
      ordered.latestZxid_le fun _ => relates_of_creates, fun isNew => ?_⟩
    rcases exists_creates served started reached found isNew with ⟨event, isMember, creates⟩
    exact ⟨ordered.latestZxid_lt isMember creates,
      ordered.latestZxid_lt isMember (modifies _ creates),
      ordered.latestZxid_lt isMember (relates_of_creates creates)⟩

def stampRun : List Call :=
  [.sampleSession, .sample 1 (.single (.create { path := ascii "/x" })),
    .sample 1 (.multi .write [.single (.set { path := ascii "/x" }),
      .single (.check { path := ascii "/y" })])]

def stampCall : Call :=
  .sample 1 (.multi .write [.single (.set { path := ascii "/x" }),
    .single (.create { path := ascii "/x/a" })])

theorem stamps_in_order_stampRun :
    ∃ recorded after reply, ReachableBy (next .sample) countsZxid { store := .sample } recorded ∧
      Answers .sample recorded stampCall after reply ∧ reply.zxid = 3 ∧
      ∃ node, after.store.dataTree.lookup (ascii "/x") = some node ∧ node.stat.mzxid = 3 := by
  simp only [exists_and_left]
  refine exists_reached_of (fun recorded => recorded.countsZxid stampCall ∧
      (∃ reply, (recorded.store.processRequest .sample stampCall).reply = some reply ∧
        reply.zxid = 3) ∧
      (∃ change ∈ recorded.store.changes .sample stampCall, writes (ascii "/x") change = true) ∧
      ∃ after, recorded.next .sample stampCall = some after ∧
        (after.store.dataTree.lookup (ascii "/x")).isSome) stampRun (by decide +kernel) ?_
  rintro recorded reached
    ⟨counted, ⟨reply, replies, isZxid⟩, ⟨change, isMember, writes⟩, after, moves, present⟩
  rcases Option.isSome_iff_exists.mp present with ⟨node, found⟩
  have answers : Answers .sample recorded stampCall after reply := ⟨counted, rfl, moves, replies⟩
  refine ⟨after, reply, answers, isZxid, node, found, ?_⟩
  have stamps := (stamps_in_order KeeperStore.started_sample reached).2.1 stampCall after reply
    (ascii "/x") node change answers found isMember
  rw [stamps.2.1 (.inr writes), isZxid]

def ephemeralChildRun : List Call :=
  [.sampleSession, .sample 1 (.single (.create { path := ascii "/x" })),
    .sample 1 (.single (.create { path := ascii "/x/a", isEphemeral := true }))]

/-- The Close of its session deletes the child, but its zxid does not reach the parent. -/
theorem close_leaves_pzxid :
    ∃ recorded, ReachableBy (next .sample) countsZxid { store := .sample } recorded ∧
      ∃ after reply, Answers .sample recorded (.sample 1 (.single .close)) after reply ∧
        reply.zxid = 3 ∧
        (recorded.store.changes .sample (.sample 1 (.single .close))).any
          (touchesChildren (ascii "/x")) = true ∧
        (after.store.dataTree.lookup (ascii "/x")).map (·.stat.pzxid) = some 2 := by
  refine exists_reached_of (fun recorded => recorded.countsZxid (.sample 1 (.single .close)) ∧
      (∃ reply, (recorded.store.processRequest .sample (.sample 1 (.single .close))).reply =
        some reply ∧ reply.zxid = 3) ∧
      (recorded.store.changes .sample (.sample 1 (.single .close))).any
        (touchesChildren (ascii "/x")) = true ∧
      ∃ after, recorded.next .sample (.sample 1 (.single .close)) = some after ∧
        (after.store.dataTree.lookup (ascii "/x")).map (·.stat.pzxid) = some 2)
    ephemeralChildRun (by decide +kernel) ?_
  rintro recorded reached ⟨counted, ⟨reply, replies, isZxid⟩, touches, after, moves, isPzxid⟩
  exact ⟨after, reply, ⟨counted, rfl, moves, replies⟩, isZxid, touches, isPzxid⟩

end Recorded

end RaftKeeper

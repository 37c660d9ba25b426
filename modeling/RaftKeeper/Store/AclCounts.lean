import RaftKeeper.Store.Law

/-!
# The counters of the access control lists

The counter of a list is the number of nodes that have it, as long as every node that gets another
list, or leaves the tree, gives its use back. SetACL and the end of a session do not.
-/

namespace RaftKeeper

open DataTree Finmap

set_option maxRecDepth 10000

def DataTree.aclIds (tree : DataTree) (path : Bytes) : Option ℕ :=
  (tree.lookup path).map KeeperNode.aclId

namespace DataTree

variable {tree later : DataTree} {path : Bytes} {number : ℕ}

theorem uses_congr (same : ∀ path, tree.aclIds path = some number ↔
    later.aclIds path = some number) : uses tree number = uses later number := by
  have isUse : ∀ (tree : DataTree) path,
      path ∈ (tree.keys.filter fun key =>
        (tree.lookup key).any fun node => decide (node.aclId = number)) ↔
        tree.aclIds path = some number := by
    intro tree path
    cases found : tree.lookup path with
    | none => simp [aclIds, found]
    | some node =>
      have present := mem_keys.mpr (mem_of_lookup_eq_some found)
      simp [aclIds, found, present]
  unfold uses count
  congr 1
  ext path
  rw [isUse, isUse, same]

theorem uses_insert_fresh {node : KeeperNode} (fresh : tree.aclIds path ≠ some number) :
    uses (tree.insert path node) number =
      uses tree number + if number = node.aclId then 1 else 0 := by
  have erased : uses (tree.erase path) number = uses tree number := by
    refine uses_congr fun other => ?_
    rw [aclIds, lookup_erase_ite]
    split
    next isPath => simpa [isPath] using fresh
    next => rfl
  have counted := count_insert (fun node => decide (node.aclId = number)) tree path node
  rw [uses, counted, ← uses, erased]
  by_cases isNumber : number = node.aclId
  · simp [isNumber]
  · simp [isNumber, Ne.symm isNumber]

end DataTree

/-- The counters say how many nodes have each list. -/
structure AclExact (state : StoreState) : Prop extends AclSound state where
  exact_counts : ∀ number, number ≠ 0 → state.aclMap.usage number = uses state.dataTree number

section

variable {zxid session time : Int64} {before after later earlier : StoreState} {undo : Undo}

theorem AclExact.of_sound (sound : AclSound after)
    (exact_counts : ∀ number, number ≠ 0 →
      after.aclMap.usage number = uses after.dataTree number) : AclExact after :=
  { sound with exact_counts }

theorem AclExact.usage_intern (exact_ : AclExact before) {number : ℕ} (nonzero : number ≠ 0)
    (acls : ACLs) :
    (before.aclMap.intern acls).2.usage number = uses before.dataTree number +
      if number = (before.aclMap.intern acls).1 then 1 else 0 := by
  rw [ACLMap.usage_intern, exact_.exact_counts number nonzero]
  by_cases isNumber : number = (before.aclMap.intern acls).1
  · rw [if_pos isNumber, if_pos ⟨isNumber, isNumber ▸ nonzero⟩]
  · rw [if_neg isNumber, if_neg fun both => isNumber both.1]

theorem Effect.aclExact (effect : Effect zxid session time before after undo)
    (exact_ : AclExact before) : AclExact after := by
  refine .of_sound (effect.aclSound exact_.toAclSound) fun number nonzero => ?_
  cases effect with
  | auths => exact exact_.exact_counts number nonzero
  | @create request parent nodeAcls auths sameAuths parentFound persistent absent named =>
    have fresh : aclIds (before.dataTree.modify (getParentPath request.path)
        (.gainChild zxid (getBaseName (request.pathCreated parent))))
          (request.pathCreated parent) ≠ some number := by
      rw [aclIds, lookup_eq_none.mpr
        (mt mem_modify.mp (lookup_eq_none.mp absent))]
      nofun
    simp only [StoreState.addCreated]
    rw [exact_.usage_intern nonzero, uses_insert_fresh fresh, uses_modify _ (by exact fun _ => rfl)]
    rfl
  | @remove path node parent found childless parentFound =>
    have counted := exact_.exact_counts number nonzero
    have uses := uses_drop (.loseChild zxid (getBaseName path)) (fun _ => rfl)
      (getParentPath path) found number
    simp only [StoreState.dropRemoved]
    rw [ACLMap.usage_removeUsage]
    omega
  | @set path node data found =>
    have sameAcl : (node.setData zxid time data).aclId = node.aclId := rfl
    rw [uses_replace found sameAcl number]
    exact exact_.exact_counts number nonzero

/-- What a rollback restores: the numbers of the nodes, and the table. -/
structure AclIdsRestored (before later : StoreState) : Prop where
  numbers : Related (fun _ old new => new.aclId = old.aclId) before.dataTree
    later.dataTree
  table : AclRestored before.aclMap later.aclMap

theorem Effect.aclIdsRestored (effect : Effect zxid session time before after undo)
    (exact_ : AclExact before) (attached : Attached before.dataTree)
    (keepsLastUse : undo.dropsLastUse before = false) (restored : AclIdsRestored after later) :
    ∃ earlier, undo.run later = some earlier ∧ AclIdsRestored before earlier := by
  rcases @Effect.related_undo zxid session time before after later undo
    (fun old new => new.aclId = old.aclId) effect (fun _ => rfl) (fun _ _ _ same => same)
    (fun _ _ _ same => same) (fun _ _ _ => rfl) attached restored.numbers with
    ⟨earlier, runs, numbers⟩
  refine ⟨earlier, runs, numbers, ?_⟩
  rcases Option.map_eq_some_iff.mp runs with ⟨_, _, rfl⟩
  exact effect.undo_aclMap exact_.toAclSound keepsLastUse restored.table

theorem AclExact.restored (exact_ : AclExact before) (restored : AclIdsRestored before later) :
    AclExact later := by
  have counts : ∀ number, number ≠ 0 → later.aclMap.usage number = uses later.dataTree number := by
    intro number nonzero
    rw [restored.table.agrees.usage, exact_.exact_counts number nonzero]
    refine uses_congr fun path => ?_
    rw [aclIds, aclIds, Related.iff_map_eq.mp restored.numbers path]
  exact .of_sound ⟨restored.table.valid, restored.table.tight, fun number nonzero =>
    (counts number nonzero).ge⟩ counts

theorem StoreRequestMultiTxn.Leaves.aclExact {trace : Trace} {rolledBack : Bool}
    (leaves : Leaves zxid session time before trace rolledBack [] after)
    (sound : OwnershipSound before) (exact_ : AclExact before)
    (keeps : rolledBack = true → ∀ entry ∈ trace, entry.2.dropsLastUse entry.1 = false) :
    AclExact after := by
  have kept : ∀ {before after undo}, Effect zxid session time before after undo →
      OwnershipSound before ∧ AclExact before → undo.dropsLastUse before = false →
      OwnershipSound after ∧ AclExact after :=
    fun effect holds _ => ⟨effect.ownershipSound holds.1, effect.aclExact holds.2⟩
  rcases leaves with ⟨executed, chain, ending⟩
  have exactLater := chain.invariant AclExact (fun _ _ => True)
    (fun effect exact_ _ => effect.aclExact exact_) exact_ fun _ _ => trivial
  split at ending
  next fails =>
    rw [List.append_nil] at ending
    rcases chain.rollback _ kept
      (fun effect holds => effect.aclIdsRestored holds.2 holds.1.attached) ⟨sound, exact_⟩
      (keeps fails) ⟨Related.iff_map_eq.mpr fun _ => rfl, exactLater.toAclSound.restored_refl⟩ with
      ⟨earlier, runs, restored⟩
    rw [ending] at runs
    cases runs
    exact exact_.restored restored
  next =>
    rw [ending]
    exact exactLater

theorem AclExact.setACL {path : Bytes} {node : KeeperNode} (exact_ : AclExact before)
    (found : before.dataTree.lookup path = some node) (plain : node.aclId = 0) (nodeAcls : ACLs)
    (auths : Dict Int64 AuthIDs) :
    AclExact (before.replaceAcls auths path node nodeAcls) := by
  refine .of_sound (exact_.toAclSound.setACL nodeAcls auths) fun number nonzero => ?_
  have fresh : before.dataTree.aclIds path ≠ some number := by
    simp [aclIds, found, plain, Ne.symm nonzero]
  rw [StoreState.replaceAcls, exact_.usage_intern nonzero, uses_insert_fresh fresh]

theorem AclExact.close {paths : Finset Bytes} (exact_ : AclExact before)
    (plain : ∀ path ∈ paths, ∀ node, before.dataTree.lookup path = some node → node.aclId = 0)
    (ephemerals : Dict Int64 (Finset Bytes)) (auths : Dict Int64 AuthIDs) :
    AclExact
      { before with
        dataTree := Replicated.dropEphemerals before.dataTree paths
        ephemerals := ephemerals
        sessionAndAuth := auths } := by
  have counts : ∀ number, number ≠ 0 → before.aclMap.usage number =
      uses (Replicated.dropEphemerals before.dataTree paths) number := by
    intro number nonzero
    rw [exact_.exact_counts number nonzero]
    refine uses_congr fun path => ?_
    rw [aclIds, aclIds, lookup_dropEphemerals]
    cases found : before.dataTree.lookup path with
    | none => simp
    | some node =>
      split
      next isExpired => simp [plain path isExpired node found, Ne.symm nonzero]
      next => rfl
  exact .of_sound ⟨exact_.valid, exact_.tight, fun number nonzero => (counts number nonzero).ge⟩
    counts

end

/-- Whether a request gives another list to a node that has one of its own. -/
def SingleRequest.replacesAcl (state : StoreState) : SingleRequest → Bool
  | .setACL request => (state.dataTree.lookup request.path).any fun node => node.aclId ≠ 0
  | _ => false

namespace KeeperStore

variable {platform : Platform} {start store after : KeeperStore} {call : Call}

/--
The call gives every use of a list back: the session it closes has no ephemeral node with a
list of its own, it gives no other list to a node with a list of its own, and it takes no
Remove of the last node with a list back.
-/
def countsAcls (platform : Platform) (store : KeeperStore) (call : Call) : Prop :=
  (call.request.request.isClose = true →
    ∀ path ∈ ephemeralsOf store.ephemerals call.request.sessionId,
      ((store.dataTree.lookup path).all fun node => node.aclId = 0) = true) ∧
  ∀ step ∈ store.steps platform call, step.2.replacesAcl step.1 = false ∧
    (store.rollsBack platform call = true → step.2.dropsLastUse step.1 = false)

instance : Decidable (store.countsAcls platform call) :=
  inferInstanceAs (Decidable (_ ∧ _))

theorem next_aclExact (moves : store.next platform call = some after)
    (meets : store.countsAcls platform call) (sound : OwnershipSound store.toStoreState)
    (exact_ : AclExact store.toStoreState) : AclExact after.toStoreState := by
  have outcome := next_outcome moves
  generalize after.toStoreState = final at outcome
  cases outcome with
  | close isClose =>
    rw [Replicated.foldl_dropEphemeral_list]
    refine exact_.close (fun path isExpired node found => ?_) _ _
    have plain := meets.1 (by rw [isClose]; rfl) path isExpired
    simpa [found] using plain
  | refused => exact exact_
  | @executed storeRequest _ type _ executed ends =>
    cases storeRequest with
    | single request =>
      rcases StoreRequest.process_single_final ends with ⟨rfl, _⟩ | ⟨response, undo, processed⟩
      · exact exact_
      have keepsAcl : request.replacesAcl store.toStoreState = false := by
        refine (meets.2 (store.toStoreState, request) ?_).1
        rw [steps, executed]
        exact List.mem_singleton.mpr rfl
      rcases StoreState.process_cases processed with
        effect | ⟨auths, rfl⟩ | ⟨own, node, nodeAcls, auths, rfl, -, found, rfl⟩
      · exact effect.aclExact exact_
      · exact .of_sound ⟨exact_.valid, exact_.tight, exact_.counted⟩ exact_.exact_counts
      · exact exact_.setACL found
          (by simpa [SingleRequest.replacesAcl, found] using keepsAcl) nodeAcls auths
    | multi txn =>
      refine (StoreRequest.process_multi_leaves (multi_legal (make_of_executes executed))
        ends).aclExact sound exact_ fun fails => ?_
      have rolledBack : store.rollsBack platform call = true := by
        rw [rollsBack, executed]
        exact fails
      have keeps := trace_dropsLastUse fun step isStep => (meets.2 step isStep).2 rolledBack
      rwa [trace, executed] at keeps

theorem Started.aclExact (started : Started platform start) : AclExact start.toStoreState := by
  have sound := started.aclSound
  rcases started with ⟨interval, digest, starts⟩
  rcases Option.map_eq_some_iff.mp starts with ⟨tree, added, rfl⟩
  exact .of_sound sound fun number nonzero => (Nat.le_zero.mp (sound.counted number nonzero)).symm

/-- The counters are exact, and the table holds the lists of the nodes and no others. -/
theorem aclUsage_exact (started : Started platform start)
    (reached : ReachableBy (next platform) (countsAcls platform) start store) :
    (∀ number, number ≠ 0 → store.aclMap.usage number = uses store.dataTree number ∧
      ((store.aclMap.numToAcl.lookup number).isSome ↔ 0 < uses store.dataTree number)) ∧
    ∀ number acls, store.aclMap.numToAcl.lookup number = some acls ↔
      store.aclMap.aclToNum.lookup acls = some number := by
  have exact_ := (reached.invariant
    (fun store => OwnershipSound store.toStoreState ∧ AclExact store.toStoreState)
    ⟨started.ownershipSound, started.aclExact⟩ fun holds meets moves =>
      ⟨(next_callEffect moves).ownershipSound holds.1, next_aclExact moves meets holds.1 holds.2⟩).2
  refine ⟨fun number nonzero => ?_, exact_.valid.inverse⟩
  have counts := exact_.exact_counts number nonzero
  refine ⟨counts, fun listed => counts ▸ exact_.tight number listed, fun used => ?_⟩
  rcases exact_.valid.lookup_eq_some_of_usage (counts ▸ used) with ⟨acls, found⟩
  rw [found]
  rfl

def countedRun : List Call :=
  sharedAclRun ++ [failingMulti, .sample 1 (.single (.remove { path := ascii "/x" })),
    .sample 1 (.single (.setACL { path := ascii "/", acls := digestAcls })),
    .sample 1 (.single .close)]

theorem aclUsage_exact_countedRun :
    ∃ store, ReachableBy (next .sample) (countsAcls .sample) sample store ∧
      uses store.dataTree 1 = 2 ∧ store.aclMap.usage 1 = 2 := by
  refine exists_reached_of (uses ·.dataTree 1 = 2) countedRun (by decide +kernel) ?_
  intro store reached isUsed
  exact ⟨isUsed, ((aclUsage_exact started_sample reached).1 1 (by decide)).1.trans isUsed⟩

def hiddenAcls : ACLs := [{ permissions := 30, scheme := ascii "world", id := ascii "anyone" }]

def leakingRuns : List (List Call) :=
  [[.sampleSession, .sample 1 (.single (.create { path := ascii "/x", acls := hiddenAcls })),
      .sample 1 (.single (.setACL { path := ascii "/x", acls := ACL.worldAnyone }))],
    [.sampleSession,
      .sample 1 (.single (.create { path := ascii "/x", acls := hiddenAcls, isEphemeral := true })),
      .sample 1 (.single .close)]]

/-- No node has the list any more, but it is still counted and kept. -/
theorem aclUsage_leaks :
    leakingRuns.map (fun calls => (runFrom (next .sample) sample calls).map fun store =>
      (uses store.dataTree 1, store.aclMap.usage 1, store.aclMap.numToAcl.lookup 1)) =
      List.replicate 2 (some (0, 1, some hiddenAcls)) := by
  decide +kernel

end KeeperStore

end RaftKeeper

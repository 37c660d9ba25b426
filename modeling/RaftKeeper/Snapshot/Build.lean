import RaftKeeper.Lib.Fallible
import RaftKeeper.Snapshot.Loader

/-!
# What the loader builds

The effect of each kind of action on the store that is being loaded, and the data tree that the
nodes and edges give. A bucket holds the parents of its edges, so the tree after all rounds has at
each path the loaded node with the names of all edges that start there.
-/

namespace RaftKeeper

open List LoadAction Prod

theorem fillDataTree_eq {tree : DataTree} {nodes : List (Bytes × KeeperNode)}
    (nodup : (nodes.map fst).Nodup)
    (fresh : ∀ path ∈ nodes.map fst, path ≠ rootPath → tree.lookup path = none) :
    fillDataTree tree nodes = .ok (tree.insertAll nodes) := by
  induction nodes generalizing tree with
  | nil => rfl
  | cons entry rest ih =>
    rw [map_cons, nodup_cons] at nodup
    have accepted : ¬ ((tree.lookup entry.1).isSome ∧ entry.1 ≠ rootPath) := by
      rintro ⟨present, notRoot⟩
      rw [fresh entry.1 (by simp) notRoot] at present
      cases present
    rw [fillDataTree, if_neg accepted, Finmap.insertAll_cons]
    apply ih nodup.2
    intro path isMember notRoot
    rw [Finmap.lookup_insert_ite, if_neg]
    · exact fresh path (mem_cons_of_mem _ isMember) notRoot
    · rintro rfl
      exact nodup.1 isMember

variable {tree : DataTree}

def namesOf (edges : List (Bytes × Bytes)) (parent : Bytes) : Finset Bytes :=
  ((edges.filter (·.1 = parent)).map snd).toFinset

def KeeperNode.withChildren (node : KeeperNode) (names : Finset Bytes) : KeeperNode :=
  { node with children := node.children ∪ names }

variable {edges : List (Bytes × Bytes)}

theorem mem_namesOf {parent name : Bytes} :
    name ∈ namesOf edges parent ↔ (parent, name) ∈ edges := by
  simp only [namesOf, mem_toFinset, mem_map, mem_filter, decide_eq_true_eq]
  constructor
  · rintro ⟨⟨_, _⟩, ⟨isEdge, rfl⟩, rfl⟩
    exact isEdge
  · intro isEdge
    exact ⟨(parent, name), ⟨isEdge, rfl⟩, rfl⟩

theorem buildChildren_spec (parents : ∀ edge ∈ edges, (tree.lookup edge.1).isSome) :
    ∃ built, buildChildren tree edges = .ok built ∧ ∀ path,
      built.lookup path = (tree.lookup path).map (·.withChildren (namesOf edges path)) := by
  induction edges generalizing tree with
  | nil =>
    refine ⟨tree, rfl, fun path => ?_⟩
    have same : (fun node : KeeperNode => node.withChildren (namesOf [] path)) = id := by
      funext node
      simp [KeeperNode.withChildren, namesOf]
    rw [same, Option.map_id, id]
  | cons edge rest ih =>
    rcases Option.isSome_iff_exists.mp (parents edge mem_cons_self) with ⟨node, found⟩
    have restParents : ∀ other ∈ rest, ((tree.insert edge.1
        { node with children := insert edge.2 node.children }).lookup other.1).isSome := by
      intro other isMember
      rw [Finmap.lookup_insert_ite]
      split
      · rfl
      · exact parents other (mem_cons_of_mem _ isMember)
    rcases ih restParents with ⟨built, result, lookups⟩
    refine ⟨built, ?_, fun path => ?_⟩
    · rw [buildChildren, found]
      exact result
    · rw [lookups, Finmap.lookup_insert_ite]
      split
      · rename_i same
        have names : namesOf (edge :: rest) path = insert edge.2 (namesOf rest path) := by
          simp [namesOf, same]
        rw [same, found, ← same, names]
        simp [KeeperNode.withChildren]
      · rename_i distinct
        have names : namesOf (edge :: rest) path = namesOf rest path := by
          simp [namesOf, Ne.symm distinct]
        rw [names]

@[simp]
theorem KeeperNode.withChildren_empty (node : KeeperNode) : node.withChildren ∅ = node := by
  simp [withChildren]

def builtNode (source start : DataTree) (edges : List (Bytes × Bytes)) (path : Bytes) :
    Option KeeperNode :=
  ((source.lookup path).or (start.lookup path)).map (·.withChildren (namesOf edges path))

section

variable {platform : Platform} {loading : Loading} {source start tree : DataTree} {bucket : ℕ}

theorem namesOf_filter_bucket (edges : List (Bytes × Bytes)) (bucket : ℕ) (path : Bytes) :
    namesOf (edges.filter fun edge => platform.getBucketIndex edge.1 = bucket) path =
      if platform.getBucketIndex path = bucket then namesOf edges path else ∅ := by
  ext name
  split
  · rename_i inBucket
    simp [mem_namesOf, inBucket]
  · rename_i elsewhere
    simp [mem_namesOf, elsewhere]

variable (lists : source.Lists loading.nodes)
  (onlyRoot : ∀ path, path ≠ rootPath → start.lookup path = none)
  (parents : ∀ edge ∈ loading.edges, (builtNode source start loading.edges edge.1).isSome)

include lists in
theorem lookup_insertAll_bucket (path : Bytes) :
    (tree.insertAll (loading.nodes.filter fun entry =>
        platform.getBucketIndex entry.1 = bucket)).lookup path =
      if platform.getBucketIndex path = bucket then (source.lookup path).or (tree.lookup path)
      else tree.lookup path := by
  by_cases isMember : path ∈ (loading.nodes.filter fun entry =>
    platform.getBucketIndex entry.1 = bucket).map fst
  · rcases @Finmap.lookup_insertAll_of_mem _ _ _ tree _ _ isMember with ⟨node, isEntry, found⟩
    rcases mem_filter.mp isEntry with ⟨inNodes, inBucket⟩
    rw [found, if_pos (of_decide_eq_true inBucket), (lists.mem_iff path node).mp inNodes]
    rfl
  · rw [Finmap.lookup_insertAll_of_notMem isMember]
    split
    next inBucket =>
      cases found : source.lookup path with
      | none => rfl
      | some node =>
        have isEntry := (lists.mem_iff path node).mpr found
        exact absurd (mem_map.mpr ⟨_, mem_filter.mpr
          ⟨isEntry, decide_eq_true inBucket⟩, rfl⟩) isMember
    next => rfl

include lists onlyRoot parents

theorem buildBucket_spec
    (before : ∀ path, platform.getBucketIndex path = bucket →
      tree.lookup path = start.lookup path) :
    ∃ built, buildBucket platform loading tree bucket = .ok built ∧
      ∀ path, built.lookup path =
        if platform.getBucketIndex path = bucket then builtNode source start loading.edges path
        else tree.lookup path := by
  have sublist : ((loading.nodes.filter fun entry =>
      platform.getBucketIndex entry.1 = bucket).map fst).Sublist
        (loading.nodes.map fst) := filter_sublist.map fst
  have fills := @fillDataTree_eq tree _ (lists.nodup.sublist sublist) (by
    intro path isMember notRoot
    rcases mem_map.mp isMember with ⟨entry, isEntry, rfl⟩
    rw [before _ (of_decide_eq_true (mem_filter.mp isEntry).2), onlyRoot _ notRoot])
  have filledParents : ∀ edge ∈ loading.edges.filter fun edge =>
      platform.getBucketIndex edge.1 = bucket, ((tree.insertAll (loading.nodes.filter fun entry =>
        platform.getBucketIndex entry.1 = bucket)).lookup edge.1).isSome := by
    intro edge isMember
    rcases mem_filter.mp isMember with ⟨isEdge, isBucket⟩
    have present := parents edge isEdge
    rw [builtNode, Option.isSome_map] at present
    rw [lookup_insertAll_bucket lists, if_pos (of_decide_eq_true isBucket),
      before _ (of_decide_eq_true isBucket)]
    exact present
  rcases buildChildren_spec filledParents with ⟨built, builds, lookups⟩
  refine ⟨built, ?_, fun path => ?_⟩
  · rw [buildBucket, fills]
    exact builds
  · rw [lookups, namesOf_filter_bucket, lookup_insertAll_bucket lists]
    split
    next inBucket => rw [before path inBucket, builtNode]
    next => simp

theorem buildBuckets_spec {buckets : List ℕ} (nodup : buckets.Nodup)
    (before : ∀ path, platform.getBucketIndex path ∈ buckets →
      tree.lookup path = start.lookup path) :
    ∃ built, buckets.foldlM (buildBucket platform loading) tree = .ok built ∧
      ∀ path, built.lookup path =
        if platform.getBucketIndex path ∈ buckets then builtNode source start loading.edges path
        else tree.lookup path := by
  induction buckets generalizing tree with
  | nil => exact ⟨tree, rfl, by simp⟩
  | cons bucket rest ih =>
    rcases nodup_cons.mp nodup with ⟨isNew, restNodup⟩
    rcases @buildBucket_spec platform _ _ _ tree bucket lists onlyRoot parents fun path isBucket =>
      before path (isBucket ▸ mem_cons_self) with ⟨middle, first, middleLookup⟩
    have untouched : ∀ path, platform.getBucketIndex path ∈ rest →
        middle.lookup path = start.lookup path := by
      intro path isMember
      rw [middleLookup, if_neg (by rintro rfl; exact isNew isMember)]
      exact before path (mem_cons_of_mem _ isMember)
    rcases ih restNodup untouched with ⟨built, others, builtLookup⟩
    refine ⟨built, by rw [foldlM_cons, first]; exact others, fun path => ?_⟩
    rw [builtLookup, middleLookup]
    by_cases later : platform.getBucketIndex path ∈ rest
    · rw [if_pos later, if_pos (mem_cons_of_mem _ later)]
    · simp [later]

end

def edgesOf (nodes : List (Bytes × KeeperNode)) : List (Bytes × Bytes) :=
  (nodes.filter (·.1 ≠ rootPath)).map fun entry => (getParentPath entry.1, getBaseName entry.1)

def addOwned (ephemerals : Dict Int64 (Finset Bytes)) (entry : Bytes × KeeperNode) :
    Dict Int64 (Finset Bytes) :=
  if entry.2.stat.ephemeralOwner ≠ 0 then
    addEphemeralNode ephemerals entry.2.stat.ephemeralOwner entry.1
  else ephemerals

def ACLMap.countNode (table : ACLMap) (entry : Bytes × KeeperNode) : ACLMap :=
  table.addUsage entry.2.aclId

namespace Loading

variable (now : Int64)

theorem apply_nodes (nodes : List (Bytes × KeeperNode)) (loading : Loading) :
    (nodes.map fun entry => node entry.1 entry.2).foldlM (apply now) loading =
      .ok { loading with
        store := { loading.store with
          aclMap := nodes.foldl ACLMap.countNode loading.store.aclMap
          ephemerals := nodes.foldl addOwned loading.store.ephemerals }
        nodes := loading.nodes ++ nodes
        edges := loading.edges ++ edgesOf nodes } := by
  induction nodes generalizing loading with
  | nil => simp [edgesOf, pure, Except.pure]
  | cons entry rest ih =>
    rcases entry with ⟨path, node⟩
    have first : (LoadAction.node path node).apply now loading =
        .ok (loading.addNode path node) := rfl
    rw [map_cons, foldlM_cons, first]
    refine (ih _).trans ?_
    by_cases isRoot : path = rootPath <;>
      simp [addNode, edgesOf, isRoot, addOwned, ACLMap.countNode]

theorem apply_acls (entries : List (ℕ × ACLs)) (loading : Loading) :
    (entries.map fun entry => acl entry.1 entry.2).foldlM (apply now) loading =
      .ok { loading with
        store := { loading.store with
          aclMap := entries.foldl (fun table entry => table.addMapping entry.1 entry.2)
            loading.store.aclMap } } := by
  induction entries generalizing loading with
  | nil => rfl
  | cons entry rest ih => exact ih _

theorem apply_intMaps (maps : List (Dict Bytes Int64)) (loading : Loading) :
    (maps.map intMap).foldlM (apply now) loading = .ok (maps.foldl setCounters loading) := by
  induction maps generalizing loading with
  | nil => rfl
  | cons map rest ih => exact ih _

variable {value current : Int64}

def counterOf (key : Bytes) (current : Int64) (map : Dict Bytes Int64) : Int64 :=
  (map.lookup key).getD current

variable {maps : List (Dict Bytes Int64)}

theorem foldl_counterOf {key : Bytes}
    (agreed : ∀ map ∈ maps, ∀ found, map.lookup key = some found → found = value)
    (isSet : current = value ∨ ∃ map ∈ maps, (map.lookup key).isSome) :
    maps.foldl (counterOf key) current = value := by
  induction maps generalizing current with
  | nil => exact isSet.resolve_right (by simp)
  | cons map rest ih =>
    rw [forall_mem_cons] at agreed
    apply ih agreed.2
    cases found : map.lookup key with
    | some other => exact .inl (by rw [counterOf, found]; exact agreed.1 other found)
    | none =>
      rw [counterOf, found]
      simpa [found] using isSet

theorem foldl_setCounters (maps : List (Dict Bytes Int64)) (loading : Loading) :
    maps.foldl setCounters loading =
      { loading with
        store := { loading.store with
          zxid := maps.foldl (counterOf (ascii "ZXID")) loading.store.zxid
          sessionManager := { loading.store.sessionManager with
            sessionIdCounter := maps.foldl (counterOf (ascii "SESSIONID"))
              loading.store.sessionManager.sessionIdCounter } }
        loadedObjectsCount := (maps.foldl setCounters loading).loadedObjectsCount } := by
  induction maps generalizing loading with
  | nil => rfl
  | cons map rest ih => exact ih _

theorem loadedObjectsCount_foldl {loading : Loading} {count : Int64} {found : UInt32}
    (uncounted : loading.loadedObjectsCount = none)
    (counts : ∀ map ∈ maps, ∀ found, map.lookup (ascii "OBJECTCOUNT") = some found → found = count)
    (isFound : (maps.foldl setCounters loading).loadedObjectsCount = some found) :
    found = count.toUInt64.toUInt32 := by
  -- only the last batch counts
  rcases eq_nil_or_concat' maps with rfl | ⟨others, last, rfl⟩
  · rw [foldl_nil, uncounted] at isFound
    cases isFound
  · rw [foldl_concat] at isFound
    rcases Option.map_eq_some_iff.mp isFound with ⟨value, lookedUp, rfl⟩
    rw [counts last (by simp) value lookedUp]

def addAuths (auths : Int64 → AuthIDs) (sessionAndAuth : Dict Int64 AuthIDs)
    (entry : Int64 × Int64) : Dict Int64 AuthIDs :=
  if auths entry.1 ≠ [] then sessionAndAuth.insert entry.1 (auths entry.1) else sessionAndAuth

theorem apply_sessions (auths : Int64 → AuthIDs) (entries : List (Int64 × Int64))
    (loading : Loading) (indexed : loading.store.sessionManager.sessionExpiryQueue.Indexed) :
    ∃ queue : SessionExpiryQueue, queue.Indexed ∧
      (entries.map fun entry => session entry.1 entry.2 (auths entry.1)).foldlM
        (apply now) loading =
      .ok { loading with
        store := { loading.store with
          sessionManager := { loading.store.sessionManager with
            sessionAndTimeout := entries.foldl
              (fun timeouts entry => SessionManager.emplaceTimeout timeouts entry.1 entry.2)
              loading.store.sessionManager.sessionAndTimeout
            sessionExpiryQueue := queue }
          sessionAndAuth := entries.foldl (addAuths auths) loading.store.sessionAndAuth } } := by
  induction entries generalizing loading with
  | nil => exact ⟨_, indexed, rfl⟩
  | cons entry rest ih =>
    rcases SessionManager.addSessionID_spec indexed now entry.1 entry.2 with
      ⟨queue, keeps, added⟩
    have first : (session entry.1 entry.2 (auths entry.1)).apply now loading =
        .ok { loading with
          store := { loading.store with
            sessionManager := { loading.store.sessionManager with
              sessionAndTimeout := SessionManager.emplaceTimeout
                loading.store.sessionManager.sessionAndTimeout entry.1 entry.2
              sessionExpiryQueue := queue }
            sessionAndAuth := addAuths auths loading.store.sessionAndAuth entry } } := by
      rw [apply, addSession, added]
      rfl
    rw [map_cons, foldlM_cons, first]
    exact ih _ keeps

theorem lookup_foldl_addAuths (auths : Int64 → AuthIDs) (entries : List (Int64 × Int64))
    (sessionAndAuth : Dict Int64 AuthIDs) (session : Int64) :
    (entries.foldl (addAuths auths) sessionAndAuth).lookup session =
      if session ∈ entries.map fst ∧ auths session ≠ [] then some (auths session)
      else sessionAndAuth.lookup session := by
  induction entries generalizing sessionAndAuth with
  | nil => simp
  | cons entry rest ih =>
    rw [foldl_cons, ih, addAuths]
    simp only [map_cons, mem_cons]
    by_cases isFirst : session = entry.1
    · by_cases named : auths session = [] <;> simp [named, ← isFirst]
    · simp only [or_iff_right isFirst]
      by_cases named : auths entry.1 = [] <;> simp [named, isFirst]

theorem mem_addOwned (ephemerals : Dict Int64 (Finset Bytes)) (entry : Bytes × KeeperNode)
    (session : Int64) (path : Bytes) :
    path ∈ ephemeralsOf (addOwned ephemerals entry) session ↔
      path ∈ ephemeralsOf ephemerals session ∨
        session ≠ 0 ∧ path = entry.1 ∧ entry.2.stat.ephemeralOwner = session := by
  rw [addOwned]
  by_cases isOwner : entry.2.stat.ephemeralOwner = session
  · by_cases unowned : session = 0
    · simp [isOwner, unowned]
    · simp [isOwner, unowned, ephemeralsOf_addEphemeralNode, or_comm]
  · split <;> simp [isOwner, ephemeralsOf_addEphemeralNode, Ne.symm isOwner]

theorem mem_foldl_addOwned (nodes : List (Bytes × KeeperNode))
    (ephemerals : Dict Int64 (Finset Bytes)) (session : Int64) (path : Bytes) :
    path ∈ ephemeralsOf (nodes.foldl addOwned ephemerals) session ↔
      path ∈ ephemeralsOf ephemerals session ∨
        session ≠ 0 ∧ ∃ node, (path, node) ∈ nodes ∧ node.stat.ephemeralOwner = session := by
  induction nodes generalizing ephemerals with
  | nil => simp
  | cons entry rest ih =>
    rcases entry with ⟨other, node⟩
    rw [foldl_cons, ih, mem_addOwned, or_assoc, ← and_or_left]
    simp only [mem_cons, Prod.mk.injEq, or_and_right, exists_or, and_assoc, exists_and_left,
      exists_eq_left]

end Loading

end RaftKeeper

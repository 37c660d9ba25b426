import Mathlib.Data.Int.Basic
import RaftKeeper.Lib.Finmap

/-!
# Sessions

`SessionManager` holds the live sessions with their timeouts; `SessionExpiryQueue` groups the
sessions by rounded expiry time. `remove` and `setSessionExpirationTime` use an iterator whatever
the test of it says: with no bucket they dereference the end iterator, which is `none` here.
-/

namespace RaftKeeper

open Finmap

/-- Two indexes: the expiry time of a session, and the sessions that expire at a time. -/
structure SessionExpiryQueue where
  sessionToExpirationTime : Dict Int64 Int64 := ∅
  expiryToSessions : Dict Int64 (Finset Int64) := ∅
  expirationInterval : Int64

namespace SessionExpiryQueue

/-- `roundToNextInterval`; the division truncates. -/
def roundToNextInterval (queue : SessionExpiryQueue) (time : Int64) : Int64 :=
  (time / queue.expirationInterval + 1) * queue.expirationInterval

/-- Take a session out of a bucket and drop the bucket when it is empty. -/
def leaveBucket (buckets : Dict Int64 (Finset Int64)) (time session : Int64) :
    Option (Dict Int64 (Finset Int64)) :=
  match buckets.lookup time with
  | none => none
  | some sessions =>
    if sessions.erase session = ∅ then some (buckets.erase time)
    else some (buckets.insert time (sessions.erase session))

/-- Put a session into a bucket, which is created when it does not exist. -/
def joinBucket (buckets : Dict Int64 (Finset Int64)) (time session : Int64) :
    Dict Int64 (Finset Int64) :=
  buckets.insert time (insert session ((buckets.lookup time).getD ∅))

def remove (queue : SessionExpiryQueue) (session : Int64) : Option SessionExpiryQueue :=
  match queue.sessionToExpirationTime.lookup session with
  | none => some queue
  | some time =>
    (leaveBucket queue.expiryToSessions time session).map fun buckets =>
      { queue with
        sessionToExpirationTime := queue.sessionToExpirationTime.erase session
        expiryToSessions := buckets }

def setSessionExpirationTime (queue : SessionExpiryQueue) (session time : Int64) :
    Option SessionExpiryQueue :=
  let times := queue.sessionToExpirationTime.insert session time
  match queue.sessionToExpirationTime.lookup session with
  | some previous =>
    if time = previous then some { queue with sessionToExpirationTime := times }
    else
      (leaveBucket (joinBucket queue.expiryToSessions time session) previous session).map
        fun buckets =>
          { queue with sessionToExpirationTime := times, expiryToSessions := buckets }
  | none =>
    some
      { queue with
        sessionToExpirationTime := times
        expiryToSessions := joinBucket queue.expiryToSessions time session }

def addNewSessionOrUpdate (queue : SessionExpiryQueue) (now session timeoutMs : Int64) :
    Option SessionExpiryQueue :=
  queue.setSessionExpirationTime session (queue.roundToNextInterval (now + timeoutMs))

/-- Every session with an expiry time is in the bucket of that time. -/
def Indexed (queue : SessionExpiryQueue) : Prop :=
  ∀ session time, queue.sessionToExpirationTime.lookup session = some time →
    ∃ sessions, queue.expiryToSessions.lookup time = some sessions ∧ session ∈ sessions

/-- The sessions in the bucket of a time, if there is one. -/
def bucketOf (buckets : Dict Int64 (Finset Int64)) (time : Int64) : Finset Int64 :=
  (buckets.lookup time).getD ∅

section

variable {buckets : Dict Int64 (Finset Int64)} {time session : Int64}

theorem mem_bucketOf : session ∈ bucketOf buckets time ↔
    ∃ sessions, buckets.lookup time = some sessions ∧ session ∈ sessions := by
  rw [bucketOf]
  cases buckets.lookup time with
  | none | some sessions => simp

theorem bucketOf_joinBucket (other : Int64) :
    bucketOf (joinBucket buckets time session) other =
      if other = time then insert session (bucketOf buckets time) else bucketOf buckets other := by
  simp only [bucketOf, joinBucket, lookup_insert_ite]
  split <;> rfl

theorem joinBucket_nonempty (nonempty : ∀ other, buckets.lookup other ≠ some ∅) (other : Int64) :
    (joinBucket buckets time session).lookup other ≠ some ∅ := by
  rw [joinBucket, lookup_insert_ite]
  split
  · simp
  · exact nonempty other

theorem leaveBucket_of_mem (isMember : session ∈ bucketOf buckets time) :
    ∃ after, leaveBucket buckets time session = some after ∧
      (∀ other, bucketOf after other =
        if other = time then (bucketOf buckets time).erase session else bucketOf buckets other) ∧
      ((∀ other, buckets.lookup other ≠ some ∅) → ∀ other, after.lookup other ≠ some ∅) := by
  rcases mem_bucketOf.mp isMember with ⟨sessions, found, _⟩
  simp only [leaveBucket, bucketOf, found, Option.getD_some]
  split
  next emptied =>
    refine ⟨_, rfl, fun other => ?_, fun nonempty other => ?_⟩
    · rw [lookup_erase_ite]
      split
      · exact emptied.symm
      · rfl
    · rw [lookup_erase_ite]
      split
      · simp
      · exact nonempty other
  next filled =>
    refine ⟨_, rfl, fun other => ?_, fun nonempty other => ?_⟩
    · rw [lookup_insert_ite]
      split <;> rfl
    · rw [lookup_insert_ite]
      split
      · exact fun same => filled (Option.some.inj same)
      · exact nonempty other

end

/-- One session gets another expiry time, or none. -/
structure Moved (session : Int64) (time : Option Int64) (queue after : SessionExpiryQueue) :
    Prop where
  interval : after.expirationInterval = queue.expirationInterval
  times : ∀ other, after.sessionToExpirationTime.lookup other =
    if other = session then time else queue.sessionToExpirationTime.lookup other
  others : ∀ other bucket, other ≠ session →
    (other ∈ bucketOf after.expiryToSessions bucket ↔
      other ∈ bucketOf queue.expiryToSessions bucket)
  own : ∀ bucket, session ∈ bucketOf after.expiryToSessions bucket ↔
    time = some bucket ∨ queue.sessionToExpirationTime.lookup session ≠ some bucket ∧
      session ∈ bucketOf queue.expiryToSessions bucket
  nonempty : (∀ bucket, queue.expiryToSessions.lookup bucket ≠ some ∅) →
    ∀ bucket, after.expiryToSessions.lookup bucket ≠ some ∅

variable {queue after : SessionExpiryQueue} {session : Int64}

theorem Moved.indexed {time : Option Int64} (moved : Moved session time queue after)
    (indexed : queue.Indexed) : after.Indexed := by
  intro other bucket found
  rw [← mem_bucketOf]
  rw [moved.times] at found
  split at found
  next isOwn =>
    subst isOwn
    exact (moved.own bucket).mpr (.inl found)
  next isOther =>
    exact (moved.others other bucket isOther).mpr (mem_bucketOf.mpr (indexed other bucket found))

theorem Indexed.remove (indexed : queue.Indexed) (session : Int64) :
    ∃ after, queue.remove session = some after ∧ Moved session none queue after := by
  cases found : queue.sessionToExpirationTime.lookup session with
  | none =>
    refine ⟨queue, by rw [SessionExpiryQueue.remove, found], rfl, fun other => ?_,
      fun _ _ _ => Iff.rfl, by simp [found], id⟩
    split
    next isOwn => rw [isOwn, found]
    next => rfl
  | some time =>
    rcases leaveBucket_of_mem (mem_bucketOf.mpr (indexed session time found)) with
      ⟨buckets, leaves, isBucket, nonempty⟩
    simp only [SessionExpiryQueue.remove, found, leaves, Option.map_some]
    refine ⟨_, rfl, rfl, fun other => lookup_erase_ite .., fun other bucket isOther => ?_,
      fun bucket => ?_, nonempty⟩
    · rw [isBucket]
      split
      next same => simp [same, isOther]
      next => rfl
    · rw [isBucket, found]
      split
      next same => simp [same]
      next isOther => simp [Ne.symm isOther]

theorem Indexed.setSessionExpirationTime (indexed : queue.Indexed) (session time : Int64) :
    ∃ after, queue.setSessionExpirationTime session time = some after ∧
      Moved session (some time) queue after := by
  have times := fun other =>
    lookup_insert_ite session other time queue.sessionToExpirationTime
  cases found : queue.sessionToExpirationTime.lookup session with
  | none =>
    simp only [SessionExpiryQueue.setSessionExpirationTime, found]
    refine ⟨_, rfl, rfl, times, fun other bucket isOther => ?_, fun bucket => ?_,
      joinBucket_nonempty⟩
    · rw [bucketOf_joinBucket]
      split
      next same => simp [same, isOther]
      next => rfl
    · rw [bucketOf_joinBucket, found]
      split
      next same => simp [same]
      next isOther => simp [Ne.symm isOther]
  | some previous =>
    have isMember := mem_bucketOf.mpr (indexed session previous found)
    by_cases unchanged : time = previous
    · simp only [SessionExpiryQueue.setSessionExpirationTime, found, if_pos unchanged]
      refine ⟨_, rfl, rfl, times, fun _ _ _ => Iff.rfl, fun bucket => ?_, id⟩
      rw [found, unchanged]
      by_cases same : previous = bucket
      · simpa [same] using same ▸ isMember
      · simp [same]
    · have stays : session ∈ bucketOf (joinBucket queue.expiryToSessions time session)
        previous := by
        rwa [bucketOf_joinBucket, if_neg (Ne.symm unchanged)]
      rcases leaveBucket_of_mem stays with ⟨buckets, leaves, isBucket, nonempty⟩
      simp only [SessionExpiryQueue.setSessionExpirationTime, found, if_neg unchanged, leaves,
        Option.map_some]
      refine ⟨_, rfl, rfl, times, fun other bucket isOther => ?_, fun bucket => ?_,
        fun all => nonempty (joinBucket_nonempty all)⟩
      · rw [isBucket, bucketOf_joinBucket, bucketOf_joinBucket]
        grind
      · rw [isBucket, bucketOf_joinBucket, bucketOf_joinBucket, found]
        grind

end SessionExpiryQueue

/-- The sessions with their timeouts, and when they expire. -/
structure SessionManager where
  sessionAndTimeout : Dict Int64 Int64 := ∅
  sessionExpiryQueue : SessionExpiryQueue
  sessionIdCounter : Int64 := 1

namespace SessionManager

def contains (manager : SessionManager) (session : Int64) : Bool :=
  (manager.sessionAndTimeout.lookup session).isSome

/-- `std::unordered_map::emplace`: a present entry is kept. -/
def emplaceTimeout (timeouts : Dict Int64 Int64) (session timeoutMs : Int64) : Dict Int64 Int64 :=
  match timeouts.lookup session with
  | some _ => timeouts
  | none => timeouts.insert session timeoutMs

theorem foldl_emplaceTimeout {entries : List (Int64 × Int64)} {timeouts : Dict Int64 Int64}
    (nodup : (entries.map Prod.fst).Nodup)
    (fresh : ∀ session ∈ entries.map Prod.fst, timeouts.lookup session = none) :
    entries.foldl (fun current entry => emplaceTimeout current entry.1 entry.2)
      timeouts = timeouts.insertAll entries := by
  induction entries generalizing timeouts with
  | nil => rfl
  | cons entry rest ih =>
    rw [List.map_cons, List.nodup_cons] at nodup
    have absent := fresh entry.1 (by simp)
    rw [List.foldl_cons, insertAll_cons, emplaceTimeout, absent]
    apply ih nodup.2
    intro session isMember
    rw [lookup_insert_ite, if_neg]
    · exact fresh session (List.mem_cons_of_mem _ isMember)
    · rintro rfl
      exact nodup.1 isMember

def addSessionID (manager : SessionManager) (now session timeoutMs : Int64) :
    Option SessionManager :=
  (manager.sessionExpiryQueue.addNewSessionOrUpdate now session timeoutMs).map fun queue =>
    { manager with
      sessionAndTimeout := emplaceTimeout manager.sessionAndTimeout session timeoutMs
      sessionExpiryQueue := queue }

def getSessionID (manager : SessionManager) (now timeoutMs : Int64) : Option SessionManager :=
  addSessionID { manager with sessionIdCounter := manager.sessionIdCounter + 1 } now
    manager.sessionIdCounter timeoutMs

def updateSessionExpirationTime (manager : SessionManager) (now session : Int64) :
    Option SessionManager :=
  match manager.sessionAndTimeout.lookup session with
  | none => some manager
  | some timeoutMs =>
    (manager.sessionExpiryQueue.addNewSessionOrUpdate now session timeoutMs).map fun queue =>
      { manager with sessionExpiryQueue := queue }

/-- `SessionManager::updateSessionTimeout`: false when the session is gone. -/
def updateSessionTimeout (manager : SessionManager) (now session : Int64) :
    Option (Bool × SessionManager) :=
  (manager.updateSessionExpirationTime now session).map fun after =>
    (manager.contains session, after)

def expireSession (manager : SessionManager) (session : Int64) : Option SessionManager :=
  (manager.sessionExpiryQueue.remove session).map fun queue =>
    { manager with
      sessionExpiryQueue := queue
      sessionAndTimeout := manager.sessionAndTimeout.erase session }

def handleRemoteSession (manager : SessionManager) (session time : Int64) : Option SessionManager :=
  (manager.sessionExpiryQueue.setSessionExpirationTime session time).map fun queue =>
    { manager with sessionExpiryQueue := queue }

/-! On an indexed queue every operation of the manager returns. -/

section

variable {manager : SessionManager} (indexed : manager.sessionExpiryQueue.Indexed)

include indexed

theorem addSessionID_spec (now session timeoutMs : Int64) :
    ∃ queue, queue.Indexed ∧ manager.addSessionID now session timeoutMs = some
      { manager with
        sessionAndTimeout := emplaceTimeout manager.sessionAndTimeout session timeoutMs
        sessionExpiryQueue := queue } := by
  rcases indexed.setSessionExpirationTime session
    (manager.sessionExpiryQueue.roundToNextInterval (now + timeoutMs)) with ⟨queue, result, moved⟩
  refine ⟨queue, moved.indexed indexed, ?_⟩
  rw [addSessionID, SessionExpiryQueue.addNewSessionOrUpdate, result]
  rfl

theorem getSessionID_spec (now timeoutMs : Int64) :
    ∃ queue, queue.Indexed ∧ manager.getSessionID now timeoutMs = some
      { sessionAndTimeout :=
          emplaceTimeout manager.sessionAndTimeout manager.sessionIdCounter timeoutMs
        sessionExpiryQueue := queue
        sessionIdCounter := manager.sessionIdCounter + 1 } :=
  @addSessionID_spec { manager with sessionIdCounter := manager.sessionIdCounter + 1 } indexed now
    manager.sessionIdCounter timeoutMs

theorem updateSessionExpirationTime_spec (now session : Int64) :
    ∃ queue, queue.Indexed ∧ manager.updateSessionExpirationTime now session = some
      { manager with sessionExpiryQueue := queue } := by
  unfold updateSessionExpirationTime
  split
  · exact ⟨manager.sessionExpiryQueue, indexed, rfl⟩
  · rename_i timeoutMs _
    rcases indexed.setSessionExpirationTime session
      (manager.sessionExpiryQueue.roundToNextInterval (now + timeoutMs)) with ⟨queue, result, moved⟩
    refine ⟨queue, moved.indexed indexed, ?_⟩
    rw [SessionExpiryQueue.addNewSessionOrUpdate, result]
    rfl

theorem updateSessionTimeout_spec (now session : Int64) :
    ∃ queue, queue.Indexed ∧ manager.updateSessionTimeout now session = some
      (manager.contains session, { manager with sessionExpiryQueue := queue }) := by
  rcases updateSessionExpirationTime_spec indexed now session with ⟨queue, kept, result⟩
  exact ⟨queue, kept, by rw [updateSessionTimeout, result]; rfl⟩

theorem expireSession_spec (session : Int64) :
    ∃ queue, queue.Indexed ∧ manager.expireSession session = some
      { manager with
        sessionExpiryQueue := queue
        sessionAndTimeout := manager.sessionAndTimeout.erase session } := by
  rcases indexed.remove session with ⟨queue, result, moved⟩
  exact ⟨queue, moved.indexed indexed, by rw [expireSession, result]; rfl⟩

end

end SessionManager

end RaftKeeper

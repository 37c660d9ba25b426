import Mathlib.Algebra.Order.Ring.Int
import Mathlib.Data.Finset.Sort
import RaftKeeper.Lib.Enumeration
import RaftKeeper.Lib.Run
import RaftKeeper.Store.SessionManager

/-!
# The expiry of sessions

The expiry queue has two indexes that every operation of the session manager keeps inverse to
each other. A session expires at the end of the interval in which its timeout runs out. A
message of a follower sets the expiry time of a session to what it was on the follower some
time ago, whatever the leader has seen since.
-/

namespace RaftKeeper

open Finmap Option

namespace SessionExpiryQueue

variable {queue after : SessionExpiryQueue} {session : Int64}

/-- The two indexes are inverse to each other, and no bucket is empty. -/
structure Exact (queue : SessionExpiryQueue) : Prop where
  inverse : ∀ session time, queue.sessionToExpirationTime.lookup session = some time ↔
    ∃ sessions, queue.expiryToSessions.lookup time = some sessions ∧ session ∈ sessions
  nonempty : ∀ time, queue.expiryToSessions.lookup time ≠ some ∅

theorem Exact.indexed (exact : queue.Exact) : queue.Indexed :=
  fun session time => (exact.inverse session time).mp

theorem Moved.exact {time : Option Int64} (moved : Moved session time queue after)
    (exact : queue.Exact) : after.Exact where
  inverse other bucket := by
    rw [moved.times, ← mem_bucketOf]
    split
    next isOwn =>
      rw [isOwn, moved.own, mem_bucketOf, ← exact.inverse, not_and_self_iff, or_false]
    next isOther => rw [moved.others _ _ isOther, mem_bucketOf, exact.inverse]
  nonempty := moved.nonempty exact.nonempty

/-- `getExpiredSessions`; the walk over the buckets ends at the first one that is not due. -/
def getExpiredSessions (queue : SessionExpiryQueue) (order : Enumeration Int64 Int64)
    (now : Int64) : List Int64 :=
  let times := (queue.expiryToSessions.keys.image Int64.toInt).sort
  (times.takeWhile (· ≤ now.toInt)).flatMap fun time =>
    order.list (Int64.ofInt time) (bucketOf queue.expiryToSessions (Int64.ofInt time))

theorem mem_getExpiredSessions (exact : queue.Exact) {order : Enumeration Int64 Int64}
    {now : Int64} :
    session ∈ queue.getExpiredSessions order now ↔
      ∃ time, queue.sessionToExpirationTime.lookup session = some time ∧ time ≤ now := by
  have isBucket : ∀ time, session ∈ bucketOf queue.expiryToSessions time ↔
      queue.sessionToExpirationTime.lookup session = some time := by
    intro time
    rw [mem_bucketOf, exact.inverse]
  simp only [getExpiredSessions, List.mem_flatMap, Enumeration.mem_list, isBucket,
    (Finset.pairwise_sort _ _).mem_takeWhile_le, Finset.mem_sort, Finset.mem_image]
  constructor
  · rintro ⟨_, ⟨⟨time, _, rfl⟩, due⟩, found⟩
    rw [Int64.ofInt_toInt] at found
    exact ⟨time, found, Int64.le_iff_toInt_le.mpr due⟩
  · rintro ⟨time, found, due⟩
    rcases (exact.inverse session time).mp found with ⟨sessions, isKey, _⟩
    refine ⟨time.toInt, ⟨⟨time, ?_, rfl⟩, Int64.le_iff_toInt_le.mp due⟩, ?_⟩
    · exact mem_keys.mpr (mem_of_lookup_eq_some isKey)
    · rwa [Int64.ofInt_toInt]

theorem roundToNextInterval_bounds {time : Int64} (positive : 0 < queue.expirationInterval.toInt)
    (nonneg : 0 ≤ time.toInt)
    (fits : time.toInt + queue.expirationInterval.toInt < 2 ^ 63) :
    time.toInt < (queue.roundToNextInterval time).toInt ∧
      (queue.roundToNextInterval time).toInt ≤ time.toInt + queue.expirationInterval.toInt := by
  have above := Int.lt_ediv_add_one_mul_self time.toInt positive
  have below : (time.toInt / queue.expirationInterval.toInt + 1) * queue.expirationInterval.toInt ≤
      time.toInt + queue.expirationInterval.toInt := by
    rw [Int.add_mul, Int.one_mul]
    exact Int.add_le_add_right (Int.ediv_mul_le time.toInt positive.ne') _
  have quotient_le := Int.ediv_le_self queue.expirationInterval.toInt nonneg
  have quotient_nonneg := Int.ediv_nonneg nonneg positive.le
  have notMinusOne : queue.expirationInterval ≠ -1 := by
    intro same
    rw [same] at positive
    exact absurd positive (by decide)
  have isQuotient : (time / queue.expirationInterval).toInt =
      time.toInt / queue.expirationInterval.toInt := by
    rw [Int64.toInt_div_of_ne_right _ _ notMinusOne, Int.tdiv_eq_ediv_of_nonneg nonneg]
  have isNext : (time / queue.expirationInterval + 1).toInt =
      time.toInt / queue.expirationInterval.toInt + 1 := by
    rw [Int64.toInt_add, isQuotient]
    exact Int.bmod_eq_of_le (by simp; omega) (by simp; omega)
  have isRounded : (queue.roundToNextInterval time).toInt =
      (time.toInt / queue.expirationInterval.toInt + 1) * queue.expirationInterval.toInt := by
    rw [roundToNextInterval, Int64.toInt_mul, isNext]
    exact Int.bmod_eq_of_le (by simp; omega) (by simp; omega)
  rw [isRounded]
  exact ⟨above, below⟩

end SessionExpiryQueue

/-- The calls of the session manager. -/
inductive SessionCall
  | getSessionID (now timeoutMs : Int64)
  | addSessionID (now session timeoutMs : Int64)
  | updateSessionTimeout (now session : Int64)
  | updateSessionExpirationTime (now session : Int64)
  | handleRemoteSession (session expirationTime : Int64)
  | expireSession (session : Int64)
  | reset

namespace SessionManager

def reset (manager : SessionManager) : SessionManager where
  sessionExpiryQueue :=
    { expirationInterval := manager.sessionExpiryQueue.expirationInterval }

/-- The sessions whose expiry time is not after now. -/
def getDeadSessions (manager : SessionManager) (order : Enumeration Int64 Int64) (now : Int64) :
    List Int64 :=
  manager.sessionExpiryQueue.getExpiredSessions order now

def next (manager : SessionManager) : SessionCall → Option SessionManager
  | .getSessionID now timeoutMs => manager.getSessionID now timeoutMs
  | .addSessionID now session timeoutMs => manager.addSessionID now session timeoutMs
  | .updateSessionTimeout now session =>
    (manager.updateSessionTimeout now session).map Prod.snd
  | .updateSessionExpirationTime now session => manager.updateSessionExpirationTime now session
  | .handleRemoteSession session expirationTime =>
    manager.handleRemoteSession session expirationTime
  | .expireSession session => manager.expireSession session
  | .reset => some manager.reset

def start (interval : Int64) : SessionManager where
  sessionExpiryQueue := { expirationInterval := interval }

end SessionManager

/-- A session is created or updated at a time, to last for its timeout. -/
structure Touch where
  session : Int64
  now : Int64
  timeoutMs : Int64

/-- The times are not negative, and the end of the timeout can be rounded up in an `int64_t`. -/
def Touch.Fits (touch : Touch) (interval : Int64) : Prop :=
  0 ≤ touch.now.toInt ∧ 0 ≤ touch.timeoutMs.toInt ∧
    touch.now.toInt + touch.timeoutMs.toInt + interval.toInt < 2 ^ 63

instance {touch : Touch} {interval : Int64} : Decidable (touch.Fits interval) :=
  inferInstanceAs (Decidable (_ ∧ _))

theorem SessionExpiryQueue.expires_bounds {queue : SessionExpiryQueue} {touch : Touch}
    (positive : 0 < queue.expirationInterval.toInt) (fits : touch.Fits queue.expirationInterval) :
    touch.now.toInt + touch.timeoutMs.toInt <
        (queue.roundToNextInterval (touch.now + touch.timeoutMs)).toInt ∧
      (queue.roundToNextInterval (touch.now + touch.timeoutMs)).toInt ≤
        touch.now.toInt + touch.timeoutMs.toInt + queue.expirationInterval.toInt := by
  rcases fits with ⟨nowNonneg, timeoutNonneg, fits⟩
  have isSum : (touch.now + touch.timeoutMs).toInt = touch.now.toInt + touch.timeoutMs.toInt := by
    rw [Int64.toInt_add]
    exact Int.bmod_eq_of_le (by simp; omega) (by simp; omega)
  rw [← isSum] at fits ⊢
  exact roundToNextInterval_bounds positive (by omega) fits

namespace SessionCall

variable (manager : SessionManager)

/-- The session that a call touches, with the timeout it counts from now on. -/
def touches : SessionCall → Option Touch
  | getSessionID now timeoutMs => some ⟨manager.sessionIdCounter, now, timeoutMs⟩
  | addSessionID now session timeoutMs => some ⟨session, now, timeoutMs⟩
  | updateSessionTimeout now session | updateSessionExpirationTime now session =>
    (manager.sessionAndTimeout.lookup session).map fun timeoutMs => ⟨session, now, timeoutMs⟩
  | handleRemoteSession .. | expireSession _ | reset => none

/-- The session whose expiry time is set, and the time. -/
def sets : SessionCall → Option (Int64 × Option Int64)
  | handleRemoteSession session expirationTime => some (session, some expirationTime)
  | expireSession session => some (session, none)
  | call => (call.touches manager).map fun touch => (touch.session,
      some (manager.sessionExpiryQueue.roundToNextInterval (touch.now + touch.timeoutMs)))

def timeouts : SessionCall → Dict Int64 Int64
  | getSessionID _ timeoutMs =>
    SessionManager.emplaceTimeout manager.sessionAndTimeout manager.sessionIdCounter timeoutMs
  | addSessionID _ session timeoutMs =>
    SessionManager.emplaceTimeout manager.sessionAndTimeout session timeoutMs
  | expireSession session => manager.sessionAndTimeout.erase session
  | _ => manager.sessionAndTimeout

end SessionCall

namespace SessionManager

variable {manager after : SessionManager} {interval session : Int64} {call : SessionCall}

/-- What a call other than `reset` does. -/
theorem next_spec (indexed : manager.sessionExpiryQueue.Indexed) (notReset : call ≠ .reset) :
    ∃ after, manager.next call = some after ∧ after.sessionAndTimeout = call.timeouts manager ∧
      match call.sets manager with
      | some (session, time) =>
        SessionExpiryQueue.Moved session time manager.sessionExpiryQueue after.sessionExpiryQueue
      | none => after.sessionExpiryQueue = manager.sessionExpiryQueue := by
  have touched := fun session now timeoutMs => indexed.setSessionExpirationTime session
    (manager.sessionExpiryQueue.roundToNextInterval (now + timeoutMs))
  cases call with
  | getSessionID now timeoutMs =>
    rcases touched manager.sessionIdCounter now timeoutMs with ⟨queue, isSet, moved⟩
    simp only [next, getSessionID, addSessionID, SessionExpiryQueue.addNewSessionOrUpdate, isSet]
    exact ⟨_, rfl, rfl, moved⟩
  | addSessionID now session timeoutMs =>
    rcases touched session now timeoutMs with ⟨queue, isSet, moved⟩
    simp only [next, addSessionID, SessionExpiryQueue.addNewSessionOrUpdate, isSet]
    exact ⟨_, rfl, rfl, moved⟩
  | updateSessionTimeout now session | updateSessionExpirationTime now session =>
    simp only [next, updateSessionTimeout, updateSessionExpirationTime, SessionCall.sets,
      SessionCall.touches]
    cases manager.sessionAndTimeout.lookup session with
    | none => exact ⟨_, rfl, rfl, rfl⟩
    | some timeoutMs =>
      rcases touched session now timeoutMs with ⟨queue, isSet, moved⟩
      simp only [SessionExpiryQueue.addNewSessionOrUpdate, isSet]
      exact ⟨_, rfl, rfl, moved⟩
  | handleRemoteSession session time =>
    rcases indexed.setSessionExpirationTime session time with ⟨queue, isSet, moved⟩
    simp only [next, handleRemoteSession, isSet]
    exact ⟨_, rfl, rfl, moved⟩
  | expireSession session =>
    rcases indexed.remove session with ⟨queue, isRemoved, moved⟩
    simp only [next, expireSession, isRemoved]
    exact ⟨_, rfl, rfl, moved⟩
  | reset => exact absurd rfl notReset

theorem next_moves (indexed : manager.sessionExpiryQueue.Indexed) (notReset : call ≠ .reset)
    (moves : manager.next call = some after) :
    after.sessionAndTimeout = call.timeouts manager ∧ match call.sets manager with
      | some (session, time) =>
        SessionExpiryQueue.Moved session time manager.sessionExpiryQueue after.sessionExpiryQueue
      | none => after.sessionExpiryQueue = manager.sessionExpiryQueue := by
  rcases next_spec indexed notReset with ⟨final, returns, spec⟩
  rw [moves] at returns
  cases returns
  exact spec

theorem next_interval (indexed : manager.sessionExpiryQueue.Indexed)
    (moves : manager.next call = some after) : after.sessionExpiryQueue.expirationInterval =
      manager.sessionExpiryQueue.expirationInterval := by
  by_cases isReset : call = .reset
  · rw [isReset] at moves
    cases moves
    rfl
  have sets := (next_moves indexed isReset moves).2
  split at sets
  next => exact sets.interval
  next => rw [sets]

/-- The queue is exact, and every session has an expiry time. -/
def ExpirySound (manager : SessionManager) : Prop :=
  manager.sessionExpiryQueue.Exact ∧ ∀ session, manager.contains session = true →
    (manager.sessionExpiryQueue.sessionToExpirationTime.lookup session).isSome

theorem expirySound_start (interval : Int64) : (start interval).ExpirySound := by
  refine ⟨⟨?_, ?_⟩, ?_⟩ <;> simp [start, contains]

theorem lookup_emplaceTimeout (timeouts : Dict Int64 Int64) (session timeoutMs other : Int64) :
    (emplaceTimeout timeouts session timeoutMs).lookup other =
      if other = session then some ((timeouts.lookup session).getD timeoutMs)
      else timeouts.lookup other := by
  cases found : timeouts.lookup session with
  | none =>
    simp only [emplaceTimeout, found]
    exact lookup_insert_ite ..
  | some known =>
    simp only [emplaceTimeout, found]
    split
    next isOwn => rw [isOwn, found, getD_some]
    next => rfl

/-- A session that is there after a call is set by it, or was there before. -/
theorem live_cases (isLive : ((call.timeouts manager).lookup session).isSome) :
    (∃ time, call.sets manager = some (session, some time)) ∨
      manager.contains session = true ∧ ∀ time, call.sets manager ≠ some (session, time) := by
  cases call with
  | getSessionID | addSessionID =>
    simp only [SessionCall.timeouts, lookup_emplaceTimeout] at isLive
    simp only [SessionCall.sets, SessionCall.touches, contains]
    grind
  | expireSession other =>
    simp only [SessionCall.timeouts, lookup_erase_ite] at isLive
    simp only [SessionCall.sets, contains]
    grind
  | updateSessionTimeout now other | updateSessionExpirationTime now other =>
    simp only [SessionCall.timeouts] at isLive
    simp only [SessionCall.sets, SessionCall.touches, contains]
    cases found : manager.sessionAndTimeout.lookup other <;> grind
  | _ =>
    simp only [SessionCall.timeouts] at isLive
    simp only [SessionCall.sets, SessionCall.touches, contains]
    grind

theorem ExpirySound.next (sound : manager.ExpirySound) (call : SessionCall) :
    ∃ after, manager.next call = some after ∧ after.ExpirySound := by
  by_cases isReset : call = .reset
  · exact ⟨manager.reset, by rw [isReset]; rfl, expirySound_start _⟩
  rcases next_spec sound.1.indexed isReset with ⟨after, moves, timeouts, sets⟩
  cases isSet : call.sets manager with
  | none =>
    rw [isSet] at sets
    refine ⟨after, moves, sets ▸ sound.1, fun session isLive => ?_⟩
    rw [contains, timeouts] at isLive
    rcases live_cases isLive with ⟨time, isTouched⟩ | ⟨wasLive, _⟩
    · rw [isSet] at isTouched
      cases isTouched
    · rw [sets]
      exact sound.2 session wasLive
  | some pair =>
    rcases pair with ⟨own, time⟩
    rw [isSet] at sets
    refine ⟨after, moves, sets.exact sound.1, fun session isLive => ?_⟩
    rw [contains, timeouts] at isLive
    rw [sets.times]
    rcases live_cases isLive with ⟨touched, isTouched⟩ | ⟨wasLive, isOther⟩
    · rw [isSet] at isTouched
      cases isTouched
      rw [if_pos rfl]
      rfl
    · rw [if_neg fun same => isOther time (by rw [isSet, same])]
      exact sound.2 session wasLive

/-- In every run no end iterator is used, the two indexes are inverse to each other without empty
buckets, and every session has an expiry time. -/
theorem expiryQueue_exact (interval : Int64) (calls : List SessionCall) :
    ∃ manager, runFrom next (start interval) calls = some manager ∧
      manager.sessionExpiryQueue.Exact ∧ ∀ session, manager.contains session = true →
        (manager.sessionExpiryQueue.sessionToExpirationTime.lookup session).isSome := by
  have runs : ∀ manager : SessionManager, manager.ExpirySound →
      ∃ last, runFrom next manager calls = some last ∧ last.ExpirySound := by
    induction calls with
    | nil => exact fun manager sound => ⟨manager, rfl, sound⟩
    | cons call rest ih =>
      intro manager sound
      rcases sound.next call with ⟨after, moves, afterSound⟩
      rw [runFrom, moves]
      exact ih after afterSound
  exact runs _ (expirySound_start interval)

theorem ExpirySound.moves (sound : manager.ExpirySound) (moves : manager.next call = some after) :
    after.ExpirySound := by
  rcases sound.next call with ⟨_, returns, afterSound⟩
  rw [moves] at returns
  cases returns
  exact afterSound

theorem reachable_expirySound {allowed : SessionManager → SessionCall → Prop}
    (reached : ReachableBy next allowed (start interval) manager) :
    manager.ExpirySound ∧ manager.sessionExpiryQueue.expirationInterval = interval := by
  refine reached.invariant (fun state => state.ExpirySound ∧
    state.sessionExpiryQueue.expirationInterval = interval) ⟨expirySound_start interval, rfl⟩ ?_
  intro before last call holds _ moves
  exact ⟨holds.1.moves moves, (next_interval holds.1.1.indexed moves).trans holds.2⟩

theorem sets_of_touches {touch : Touch} (touches : call.touches manager = some touch) :
    call ≠ .reset ∧ call.sets manager = some (touch.session,
      some (manager.sessionExpiryQueue.roundToNextInterval (touch.now + touch.timeoutMs))) := by
  cases call with
  | handleRemoteSession | expireSession | reset => cases touches
  | _ => exact ⟨nofun, by simp only [SessionCall.sets, touches, map_some]⟩

theorem leaves_lookup (indexed : manager.sessionExpiryQueue.Indexed) (notReset : call ≠ .reset)
    (moves : manager.next call = some after)
    (isOther : (call.sets manager).map Prod.fst ≠ some session) :
    after.sessionExpiryQueue.sessionToExpirationTime.lookup session =
      manager.sessionExpiryQueue.sessionToExpirationTime.lookup session := by
  have sets := (next_moves indexed notReset moves).2
  split at sets
  next own time isSet =>
    rw [sets.times, if_neg]
    rintro rfl
    exact isOther (by rw [isSet]; rfl)
  next => rw [sets]

/-- The call is on other sessions only. -/
def leaves (session : Int64) (manager : SessionManager) (call : SessionCall) : Prop :=
  call ≠ .reset ∧ (call.sets manager).map Prod.fst ≠ some session

/-- A session that was touched last at some time is not dead before its timeout is over, and is
dead once the interval after that is over, too. -/
theorem expiry_timing (positive : 0 < interval)
    (reached : ReachableBy next (fun _ _ => True) (start interval) manager) {call : SessionCall}
    {touch : Touch} (touches : call.touches manager = some touch) (fits : touch.Fits interval)
    {touched later : SessionManager} (moves : manager.next call = some touched)
    (undisturbed : ReachableBy next (leaves touch.session) touched later)
    (order : Enumeration Int64 Int64) (now : Int64) :
    (now.toInt ≤ touch.now.toInt + touch.timeoutMs.toInt →
        touch.session ∉ later.getDeadSessions order now) ∧
      (touch.now.toInt + touch.timeoutMs.toInt + interval.toInt ≤ now.toInt →
        touch.session ∈ later.getDeadSessions order now) := by
  rcases reachable_expirySound reached with ⟨sound, isInterval⟩
  rcases sets_of_touches touches with ⟨notReset, isSet⟩
  have sets := (next_moves sound.1.indexed notReset moves).2
  simp only [isSet] at sets
  -- the entry of the session stays as it is until the session is set again
  have kept := undisturbed.invariant (fun state => state.ExpirySound ∧
    state.sessionExpiryQueue.sessionToExpirationTime.lookup touch.session =
      some (manager.sessionExpiryQueue.roundToNextInterval (touch.now + touch.timeoutMs)))
    ⟨sound.moves moves, by rw [sets.times, if_pos rfl]⟩ fun holds meets moves =>
      ⟨holds.1.moves moves, (leaves_lookup holds.1.1.indexed meets.1 moves meets.2).trans holds.2⟩
  have positiveInterval : 0 < manager.sessionExpiryQueue.expirationInterval.toInt := by
    rw [isInterval]
    exact Int64.lt_iff_toInt_lt.mp positive
  have bounds := SessionExpiryQueue.expires_bounds positiveInterval (isInterval ▸ fits)
  rw [getDeadSessions, SessionExpiryQueue.mem_getExpiredSessions kept.1.1, kept.2]
  simp only [some.injEq, exists_eq_left', Int64.le_iff_toInt_le]
  rw [isInterval] at bounds
  exact ⟨fun early => by omega, fun late => bounds.2.trans late⟩

theorem expiry_timing_sampleSession :
    ∃ touched, (start 500).next (.getSessionID 0 1000) = some touched ∧ ∀ order,
      (1 : Int64) ∉ touched.getDeadSessions order 1000 ∧
        (1 : Int64) ∈ touched.getDeadSessions order 1500 := by
  rcases (expirySound_start 500).next (.getSessionID 0 1000) with ⟨touched, moves, _⟩
  have timing := expiry_timing (by decide) .start rfl (by decide) moves .start
  exact ⟨touched, moves, fun order =>
    ⟨(timing order 1000).1 (by decide), (timing order 1500).2 (by decide)⟩⟩

/-- The sum of a time and a timeout overflows, and the new session is dead at once. -/
theorem longTimeout_dead_at_once :
    ∃ touched, (start 500).next (.getSessionID 0 Int64.maxValue) = some touched ∧
      ∀ order, (1 : Int64) ∈ touched.getDeadSessions order 0 := by
  rcases (expirySound_start 500).next (.getSessionID 0 Int64.maxValue) with
    ⟨touched, moves, sound⟩
  have sets := (next_moves (expirySound_start 500).1.indexed (by simp) moves).2
  refine ⟨touched, moves, fun order =>
    (SessionExpiryQueue.mem_getExpiredSessions sound.1).mpr ⟨_, sets.times 1, ?_⟩⟩
  decide

end SessionManager

/-- A leader's sessions, with the time at which it last saw activity of each. -/
structure LeaderSessions where
  manager : SessionManager
  activity : Dict Int64 Int64 := ∅

namespace LeaderSessions

def next (leader : LeaderSessions) (call : SessionCall) : Option LeaderSessions :=
  (leader.manager.next call).map fun manager =>
    { manager
      activity :=
        match call.touches leader.manager with
        | some touch => leader.activity.insert touch.session touch.now
        | none => leader.activity }

/-- The expiry times are those of the live sessions, and none is before the timeout after the
session's last activity. -/
structure Safe (leader : LeaderSessions) : Prop where
  live : ∀ session,
    (leader.manager.sessionExpiryQueue.sessionToExpirationTime.lookup session).isSome =
      leader.manager.contains session
  recent : ∀ session seen timeoutMs time, leader.activity.lookup session = some seen →
    leader.manager.sessionAndTimeout.lookup session = some timeoutMs →
      leader.manager.sessionExpiryQueue.sessionToExpirationTime.lookup session = some time →
        seen.toInt + timeoutMs.toInt ≤ time.toInt

/-- The calls on a leader: committed requests, whose times fit and whose new sessions are new, and
messages of followers, which are about live sessions and do not lower their expiry times. -/
def current (leader : LeaderSessions) (call : SessionCall) : Bool :=
  (call.touches leader.manager).all
      (·.Fits leader.manager.sessionExpiryQueue.expirationInterval) &&
    match call with
    | .getSessionID .. => !leader.manager.contains leader.manager.sessionIdCounter
    | .handleRemoteSession session time =>
      (leader.manager.sessionExpiryQueue.sessionToExpirationTime.lookup session).any (· ≤ time)
    | .addSessionID .. | .reset => false
    | _ => true

variable {leader after : LeaderSessions} {interval : Int64}

/-- At most one session gets another expiry time, another timeout and other activity. -/
theorem Safe.set (safe : leader.Safe) {own : Int64} {time timeoutMs seen : Option Int64}
    (times : ∀ other,
      after.manager.sessionExpiryQueue.sessionToExpirationTime.lookup other =
        if other = own then time
        else leader.manager.sessionExpiryQueue.sessionToExpirationTime.lookup other)
    (timeouts : ∀ other, after.manager.sessionAndTimeout.lookup other =
      if other = own then timeoutMs else leader.manager.sessionAndTimeout.lookup other)
    (activity : ∀ other, after.activity.lookup other =
      if other = own then seen else leader.activity.lookup other)
    (isLive : time.isSome = timeoutMs.isSome)
    (lasts : ∀ at_ length last, seen = some at_ → timeoutMs = some length → time = some last →
      at_.toInt + length.toInt ≤ last.toInt) : after.Safe where
  live other := by
    have live := safe.live other
    rw [SessionManager.contains] at live ⊢
    rw [times, timeouts]
    split
    next => exact isLive
    next => exact live
  recent other at_ length last isSeen isTimeout isTime := by
    rw [activity] at isSeen
    rw [timeouts] at isTimeout
    rw [times] at isTime
    split at isSeen
    next isOwn =>
      rw [if_pos isOwn] at isTimeout isTime
      exact lasts _ _ _ isSeen isTimeout isTime
    next isOther =>
      rw [if_neg isOther] at isTimeout isTime
      exact safe.recent other _ _ _ isSeen isTimeout isTime

variable {call : SessionCall}

/-- A session that is touched has the timeout it is touched with. -/
theorem timeouts_of_current {touch : Touch} (isCurrent : leader.current call = true)
    (touches : call.touches leader.manager = some touch) (other : Int64) :
    (call.timeouts leader.manager).lookup other = if other = touch.session then some touch.timeoutMs
      else leader.manager.sessionAndTimeout.lookup other := by
  cases call with
  | addSessionID | reset => simp [current] at isCurrent
  | handleRemoteSession | expireSession => cases touches
  | getSessionID now timeoutMs =>
    cases touches
    have isFresh : leader.manager.sessionAndTimeout.lookup leader.manager.sessionIdCounter =
      none := by
      simpa [current, SessionManager.contains] using (Bool.and_eq_true_iff.mp isCurrent).2
    rw [SessionCall.timeouts, SessionManager.lookup_emplaceTimeout, isFresh]
    rfl
  | updateSessionTimeout now session | updateSessionExpirationTime now session =>
    rcases map_eq_some_iff.mp touches with ⟨timeoutMs, found, rfl⟩
    split
    next isOwn => exact isOwn ▸ found
    next => rfl

theorem Safe.next (safe : leader.Safe) (sound : leader.manager.ExpirySound)
    (positive : 0 < leader.manager.sessionExpiryQueue.expirationInterval.toInt)
    (isCurrent : leader.current call = true) (moves : leader.next call = some after) :
    after.Safe := by
  rcases map_eq_some_iff.mp moves with ⟨manager, managerMoves, rfl⟩
  rcases Bool.and_eq_true_iff.mp isCurrent with ⟨fits, isAllowed⟩
  have notReset : call ≠ .reset := by
    rintro rfl
    cases isAllowed
  rcases SessionManager.next_moves sound.1.indexed notReset managerMoves with ⟨timeouts, sets⟩
  cases touches : call.touches leader.manager with
  | some touch =>
    simp only [(SessionManager.sets_of_touches touches).2] at sets
    have ownTimeout := timeouts_of_current isCurrent touches
    rw [← timeouts] at ownTimeout
    refine safe.set sets.times ownTimeout (fun other => lookup_insert_ite ..) rfl ?_
    rintro _ _ _ ⟨rfl⟩ ⟨rfl⟩ ⟨rfl⟩
    rw [touches, all_some, decide_eq_true_eq] at fits
    exact (SessionExpiryQueue.expires_bounds positive fits).1.le
  | none =>
    have unchanged {map last : Dict Int64 Int64} (same : last = map) (own other : Int64) :
        last.lookup other = if other = own then map.lookup own else map.lookup other := by
      rw [same]
      split
      next isOwn => rw [isOwn]
      next => rfl
    cases call with
    | addSessionID | reset => cases isAllowed
    | getSessionID => cases touches
    | updateSessionTimeout now session | updateSessionExpirationTime now session =>
      simp only [SessionCall.sets, touches, map_none] at sets
      exact safe.set (unchanged (congrArg _ sets) session) (unchanged timeouts session)
        (unchanged rfl session) (safe.live session) (safe.recent session)
    | handleRemoteSession session time =>
      rcases (any_eq_true _ _).mp isAllowed with ⟨known, isKnown, later⟩
      refine safe.set sets.times (unchanged timeouts session) (unchanged rfl session) ?_ ?_
      · refine Eq.trans ?_ (safe.live session)
        rw [isKnown]
        rfl
      · rintro seen timeoutMs _ isSeen isTimeout ⟨rfl⟩
        exact (safe.recent session _ _ _ isSeen isTimeout isKnown).trans
          (Int64.le_iff_toInt_le.mp (of_decide_eq_true later))
    | expireSession session =>
      have erased := fun other =>
        lookup_erase_ite session other leader.manager.sessionAndTimeout
      exact safe.set sets.times (timeouts ▸ erased) (unchanged rfl session) rfl nofun

/-- The queue has the live sessions, and none of them expires before its timeout has passed since it
was last active, as long as followers report live sessions and no earlier times. -/
theorem remoteSessions_safe (positive : 0 < interval)
    (reached : ReachableBy next (fun leader call => leader.current call = true)
      { manager := .start interval } leader) : leader.Safe := by
  refine (reached.invariant (fun state => state.Safe ∧ state.manager.ExpirySound ∧
    state.manager.sessionExpiryQueue.expirationInterval = interval)
    ⟨⟨fun _ => rfl, by simp⟩, SessionManager.expirySound_start interval, rfl⟩ ?_).1
  intro before last call holds isCurrent moves
  rcases holds with ⟨safe, sound, isInterval⟩
  rcases map_eq_some_iff.mp moves with ⟨manager, managerMoves, rfl⟩
  have keeps := SessionManager.next_interval sound.1.indexed managerMoves
  refine ⟨safe.next sound ?_ isCurrent moves, sound.moves managerMoves, keeps.trans isInterval⟩
  rw [isInterval]
  exact Int64.lt_iff_toInt_lt.mp positive

theorem remoteSessions_safe_sampleRun :
    ∃ leader, ReachableBy next (fun leader call => leader.current call = true)
        { manager := .start 500 } leader ∧
      leader.manager.sessionExpiryQueue.sessionToExpirationTime.lookup 1 = some 3000 ∧
        leader.Safe := by
  exact exists_reached_of _
    [.getSessionID 0 1000, .updateSessionExpirationTime 1000 1, .handleRemoteSession 1 3000]
    (by decide +kernel) fun reached isTime => ⟨isTime, remoteSessions_safe (by decide) reached⟩

/-- A follower computes 1500 when it applies the new session at 0. The leader gets this after an
update at 1000, and the session is to expire before its timeout; or after the session is closed,
and it is back in the queue. -/
theorem staleTime_breaks_safety :
    (runFrom SessionManager.next (.start 500) [.getSessionID 0 1000]).map
        (·.sessionExpiryQueue.sessionToExpirationTime.lookup 1) = some (some 1500) ∧
      (runFrom next { manager := .start 500 } [.getSessionID 0 1000,
          .updateSessionExpirationTime 1000 1, .handleRemoteSession 1 1500]).map
        (fun leader => (leader.activity.lookup 1, leader.manager.sessionAndTimeout.lookup 1,
          leader.manager.sessionExpiryQueue.sessionToExpirationTime.lookup 1)) =
        some (some 1000, some 1000, some 1500) ∧
      (runFrom next { manager := .start 500 } [.getSessionID 0 1000, .expireSession 1,
          .handleRemoteSession 1 1500]).map
        (fun leader => (leader.manager.contains 1,
          leader.manager.sessionExpiryQueue.sessionToExpirationTime.lookup 1)) =
        some (false, some 1500) := by
  decide +kernel

end LeaderSessions

end RaftKeeper

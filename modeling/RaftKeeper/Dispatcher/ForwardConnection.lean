import RaftKeeper.Dispatcher.ForwardCodec

/-!
# Packages on the leader's side of a connection

`ForwardConnectionHandler::onSocketReadable` takes turns as long as there is something to read: the
type of a package, or what has arrived of its length and body. The bytes may arrive in any pieces.
When the processing of a package throws, the handler answers that the request has failed and keeps
the body; in the next turn it finds the body complete and processes the package again.
-/

namespace RaftKeeper

open Bool ForwardPackage List Option

/-- The leader knows the type, and the body has a length that the type allows. -/
def ForwardPackage.WellFormed (package : ForwardPackage) : Prop :=
  package.type ≠ .unknown ∧ package.type ≠ .destroy ∧
    if package.type = .handshake then package.body.length = 8 else package.body.length < 2 ^ 31

/-- A buffer of a fixed size that is filled over several reads. -/
structure FIFOBuffer where
  size : ℕ
  content : Bytes := []
deriving DecidableEq

namespace FIFOBuffer

def isFull (buffer : FIFOBuffer) : Bool := buffer.content.length = buffer.size

def receiveBytes (buffer : FIFOBuffer) (available : Bytes) : FIFOBuffer × Bytes :=
  let room := buffer.size - buffer.content.length
  ({ buffer with content := buffer.content ++ available.take room }, available.drop room)

/-- What a buffer for `whole` has got, and what is left in the socket, when `tail` and `future`
are behind it. -/
inductive Received (whole future tail : Bytes) : FIFOBuffer × Bytes → Prop
  | all {rest : Bytes} (isRest : rest ++ future = tail) :
      Received whole future tail ({ size := whole.length, content := whole }, rest)
  | part {got : Bytes} (short : got.length < whole.length)
      (isSplit : got ++ future = whole ++ tail) :
      Received whole future tail ({ size := whole.length, content := got }, [])

variable {available : Bytes}

theorem receiveBytes_received {got whole future tail : Bytes} (short : got.length ≤ whole.length)
    (isSplit : got ++ (available ++ future) = whole ++ tail) :
    Received whole future tail
      (receiveBytes { size := whole.length, content := got } available) := by
  simp only [receiveBytes]
  rw [← append_assoc] at isSplit
  by_cases enough : whole.length - got.length ≤ available.length
  · rw [← take_append_drop (whole.length - got.length) available, ← append_assoc,
      append_assoc] at isSplit
    have sameLength : (got ++ available.take (whole.length - got.length)).length =
        whole.length := by
      rw [length_append, length_take]
      omega
    rcases append_inj isSplit sameLength with ⟨isWhole, isRest⟩
    rw [isWhole]
    exact .all isRest
  · rw [take_of_length_le (by omega), drop_of_length_le (by omega)]
    refine .part ?_ isSplit
    rw [length_append]
    omega

theorem length_receiveBytes_lt {buffer : FIFOBuffer}
    (notFull : buffer.content.length < buffer.size) (isThere : available ≠ []) :
    (buffer.receiveBytes available).2.length < available.length := by
  have positive := length_pos_iff.mpr isThere
  simp only [receiveBytes, length_drop]
  omega

end FIFOBuffer

theorem ZooReader.run'_int32_ofNat {size : ℕ} (bounded : size < 2 ^ 31) :
    ZooReader.int32.run' (writeInt32 (Int32.ofNat size)) = .ok (Int32.ofNat size) ∧
      (Int32.ofNat size).toInt = size ∧ ¬ Int32.ofNat size < 0 := by
  have isSize : (Int32.ofNat size).toInt = size := Int32.toInt_ofNat_of_lt bounded
  refine ⟨?_, isSize, ?_⟩
  · have reads := ZooReader.reads_int32 (Int32.ofNat size) []
    rw [append_nil] at reads
    rw [StateT.run'_eq, reads]
    rfl
  · rw [Int32.lt_iff_toInt_lt, isSize, Int32.toInt_zero]
    omega

/-- What the handler has read of the package that is arriving. -/
structure ForwardConnectionHandler where
  reqHeaderBuf : FIFOBuffer := { size := 1 }
  reqBodyLenBuf : FIFOBuffer := { size := 4 }
  reqBodyBuf : Option FIFOBuffer := none
  type : ForwardType := .unknown
  isDone : Bool := true
deriving DecidableEq

/-- A handler with the bytes that it can read now, those that are still to come, and what it has
processed. -/
structure ForwardStream where
  handler : Option ForwardConnectionHandler := some {}
  available : Bytes := []
  future : Bytes
  processed : List ForwardPackage := []
deriving DecidableEq

/-- What happens to a connection between a follower and the leader. -/
inductive StreamEvent
  | arrive (count : ℕ)
  /-- A turn of the loop. So many bytes arrive between two reads of it, and a processing in it
  may throw an exception. -/
  | turn (late : ℕ) (throws : Bool)

namespace ForwardStream

/-- An exception is caught unless it is from `processHandshake`. -/
def process (stream : ForwardStream) (handler : ForwardConnectionHandler) (body : FIFOBuffer)
    (throws : Bool) : ForwardStream :=
  { stream with
    processed := stream.processed ++ [{ type := handler.type, body := body.content }]
    handler :=
      if !throws then some { handler with reqBodyBuf := none, isDone := true }
      else if handler.type = .handshake then none
      else some { handler with reqBodyBuf := some body } }

def receiveBody (stream : ForwardStream) (handler : ForwardConnectionHandler) (body : FIFOBuffer)
    (throws : Bool) : ForwardStream :=
  let received := body.receiveBytes stream.available
  if received.1.isFull then
    { stream with available := received.2 }.process handler received.1 throws
  else
    { stream with
      available := received.2
      handler := some { handler with reqBodyBuf := some received.1 } }

/-- A negative length is an exception of `FIFOBuffer`. -/
def receiveLength (stream : ForwardStream) (handler : ForwardConnectionHandler) (late : ℕ)
    (throws : Bool) : ForwardStream :=
  let received := handler.reqBodyLenBuf.receiveBytes stream.available
  let arrived :=
    { stream with
      available := received.2 ++ stream.future.take late
      future := stream.future.drop late }
  if received.1.isFull then
    match ZooReader.int32.run' received.1.content with
    | .ok bodyLen =>
      if bodyLen < 0 then { arrived with handler := none }
      else
        arrived.receiveBody { handler with reqBodyLenBuf := { size := 4 } }
          { size := bodyLen.toInt.toNat } throws
    | .error _ => { arrived with handler := none }
  else { arrived with handler := some { handler with reqBodyLenBuf := received.1 } }

def receiveHeader (stream : ForwardStream) (handler : ForwardConnectionHandler) : ForwardStream :=
  let received := handler.reqHeaderBuf.receiveBytes stream.available
  let arrived := { stream with available := received.2 }
  match received.1.content with
  | [] => arrived
  | code :: _ =>
    match ForwardType.ofCode code with
    | none | some .destroy | some .unknown => { arrived with handler := none }
    | some type =>
      { arrived with
        handler := some
          { handler with reqHeaderBuf := { size := 1 }, type := type, isDone := false } }

def turn (stream : ForwardStream) (handler : ForwardConnectionHandler) (late : ℕ)
    (throws : Bool) : ForwardStream :=
  if handler.isDone then stream.receiveHeader handler
  else
    match handler.reqBodyBuf with
    | some body => stream.receiveBody handler body throws
    | none =>
      if handler.type = .handshake then stream.receiveBody handler { size := 8 } throws
      else stream.receiveLength handler late throws

def next (stream : ForwardStream) : StreamEvent → Option ForwardStream
  | .arrive count =>
    some
      { stream with
        available := stream.available ++ stream.future.take count
        future := stream.future.drop count }
  | .turn late throws =>
    if stream.available = [] then none
    else stream.handler.map fun handler => stream.turn handler late throws

def Calm (_ : ForwardStream) (event : StreamEvent) : Prop :=
  match event with
  | .arrive _ => True
  | .turn _ throws => throws = false

instance (stream : ForwardStream) : DecidablePred stream.Calm
  | .arrive _ => .isTrue trivial
  | .turn _ throws => inferInstanceAs (Decidable (throws = false))

def start (packages : List ForwardPackage) : ForwardStream where
  future := packages.flatMap ForwardPackage.bytes

/-- What the handler has got of the first of these packages, when the input is still to come. -/
inductive Reading : ForwardConnectionHandler → Bytes → List ForwardPackage → Prop
  | idle {type : ForwardType} {packages : List ForwardPackage} :
      Reading { type } (packages.flatMap bytes) packages
  | length {package : ForwardPackage} {packages : List ForwardPackage} {got input : Bytes}
      (notHandshake : package.type ≠ .handshake) (bounded : package.body.length < 2 ^ 31)
      (short : got.length < 4)
      (isSplit : got ++ input =
        writeInt32 (Int32.ofNat package.body.length) ++ (package.body ++ packages.flatMap bytes)) :
      Reading
        { reqBodyLenBuf := { size := 4, content := got }, type := package.type, isDone := false }
        input (package :: packages)
  | handshake {package : ForwardPackage} {packages : List ForwardPackage}
      (isHandshake : package.type = .handshake) (isBody : package.body.length = 8) :
      Reading { type := package.type, isDone := false }
        (package.body ++ packages.flatMap bytes) (package :: packages)
  | body {package : ForwardPackage} {packages : List ForwardPackage} {got input : Bytes}
      (short : got.length < package.body.length)
      (isSplit : got ++ input = package.body ++ packages.flatMap bytes) :
      Reading
        { reqBodyBuf := some { size := package.body.length, content := got }
          type := package.type
          isDone := false }
        input (package :: packages)

/-- The packages are those that were processed and those that the handler goes on to read. -/
def Sound (packages : List ForwardPackage) (stream : ForwardStream) : Prop :=
  ∃ handler rest, stream.handler = some handler ∧
    Reading handler (stream.available ++ stream.future) rest ∧ stream.processed ++ rest = packages

variable {stream after : ForwardStream} {package : ForwardPackage} {packages : List ForwardPackage}
  {got : Bytes}

theorem receiveBody_sound {kept : Option FIFOBuffer} (short : got.length ≤ package.body.length)
    (isSplit : got ++ (stream.available ++ stream.future) =
      package.body ++ packages.flatMap ForwardPackage.bytes) :
    Sound (stream.processed ++ package :: packages)
      (stream.receiveBody { reqBodyBuf := kept, type := package.type, isDone := false }
        { size := package.body.length, content := got } false) := by
  have received := FIFOBuffer.receiveBytes_received short isSplit
  rw [receiveBody]
  generalize FIFOBuffer.receiveBytes _ _ = result at received
  cases received with
  | all isRest =>
    simp only [FIFOBuffer.isFull, decide_true, if_true]
    refine ⟨{ type := package.type }, packages, rfl, ?_, ?_⟩
    · rw [process, isRest]
      exact .idle
    · rw [process, append_assoc]
      rfl
  | part short isSplit =>
    simp only [FIFOBuffer.isFull, short.ne, decide_false, false_eq_true, if_false]
    exact ⟨_, package :: packages, rfl, .body short isSplit, rfl⟩

variable {late : ℕ}

theorem receiveLength_sound (notHandshake : package.type ≠ .handshake)
    (bounded : package.body.length < 2 ^ 31) (short : got.length < 4)
    (isSplit : got ++ (stream.available ++ stream.future) =
      writeInt32 (Int32.ofNat package.body.length) ++
        (package.body ++ packages.flatMap ForwardPackage.bytes)) :
    Sound (stream.processed ++ package :: packages)
      (stream.receiveLength
        { reqBodyLenBuf := { size := 4, content := got }, type := package.type, isDone := false }
        late false) := by
  have isFour : (writeInt32 (Int32.ofNat package.body.length)).length = 4 := by simp [writeInt32]
  have received := FIFOBuffer.receiveBytes_received (isFour ▸ short.le) isSplit
  rw [isFour] at received
  rw [receiveLength]
  generalize FIFOBuffer.receiveBytes _ _ = result at received
  cases received with
  | @all rest isRest =>
    rcases ZooReader.run'_int32_ofNat bounded with ⟨isRead, isSize, notNegative⟩
    simp only [FIFOBuffer.isFull, decide_true, if_true, isRead, if_neg notNegative, isSize,
      Int.toNat_natCast]
    apply receiveBody_sound (Nat.zero_le _)
    rw [nil_append, append_assoc, take_append_drop, isRest]
  | part short isSplit =>
    simp only [FIFOBuffer.isFull, short.ne, decide_false, false_eq_true, if_false]
    rw [isFour] at short ⊢
    refine ⟨_, package :: packages, rfl, .length notHandshake bounded short ?_, rfl⟩
    rw [nil_append, take_append_drop, isSplit]

theorem receiveHeader_sound {type : ForwardType} (isThere : stream.available ≠ [])
    (wellFormed : ∀ package ∈ packages, package.WellFormed)
    (isSplit : stream.available ++ stream.future = packages.flatMap bytes) :
    Sound (stream.processed ++ packages) (stream.receiveHeader { type }) := by
  cases isAvailable : stream.available with
  | nil => exact absurd isAvailable isThere
  | cons code rest =>
    cases packages with
    | nil => simp [isAvailable] at isSplit
    | cons package packages =>
      rw [isAvailable, flatMap_cons, ForwardPackage.bytes, cons_append, cons_append] at isSplit
      rcases cons.inj isSplit with ⟨rfl, isRest⟩
      rcases wellFormed package mem_cons_self with ⟨isKnown, isKept, isBody⟩
      have isRead : stream.receiveHeader { type } =
          { stream with
            available := rest
            handler := some { type := package.type, isDone := false } } := by
        simp only [receiveHeader, FIFOBuffer.receiveBytes, isAvailable, length_nil,
          Nat.sub_zero, take_succ_cons, take_zero, nil_append,
          drop_succ_cons, drop_zero, ForwardType.ofCode_code]
      rw [isRead]
      refine ⟨_, package :: packages, rfl, ?_, rfl⟩
      dsimp only
      rw [isRest]
      by_cases isHandshake : package.type = .handshake
      · rw [if_pos isHandshake] at isBody ⊢
        exact .handshake isHandshake isBody
      · rw [if_neg isHandshake] at isBody ⊢
        rw [writeString, append_assoc]
        exact .length isHandshake isBody (by decide) rfl

variable {handler : ForwardConnectionHandler} {rest : List ForwardPackage}

theorem turn_sound (isThere : stream.available ≠ [])
    (wellFormed : ∀ package ∈ rest, package.WellFormed)
    (reading : Reading handler (stream.available ++ stream.future) rest) :
    Sound (stream.processed ++ rest) (stream.turn handler late false) := by
  generalize isInput : stream.available ++ stream.future = input at reading
  cases reading with
  | idle => exact receiveHeader_sound isThere wellFormed isInput
  | length notHandshake bounded short isSplit =>
    rw [← isInput] at isSplit
    simp only [turn, false_eq_true, if_false, if_neg notHandshake]
    exact receiveLength_sound notHandshake bounded short isSplit
  | handshake isHandshake isBody =>
    simp only [turn, false_eq_true, if_false, if_pos isHandshake]
    rw [← isBody]
    exact receiveBody_sound (Nat.zero_le _) isInput
  | body short isSplit =>
    rw [← isInput] at isSplit
    exact receiveBody_sound short.le isSplit

theorem Reading.eq_nil (reading : Reading handler [] rest) : rest = [] := by
  generalize isInput : ([] : Bytes) = input at reading
  cases reading with
  | idle =>
    cases rest with
    | nil => rfl
    | cons package rest => simp [ForwardPackage.bytes] at isInput
  | length notHandshake bounded short isSplit =>
    have sameLength := congrArg List.length isSplit
    simp only [← isInput, append_nil, length_append, writeInt32, length_bigEndian]
      at sameLength
    omega
  | handshake isHandshake isBody =>
    simp [eq_nil_iff_length_eq_zero.mp (append_eq_nil_iff.mp isInput.symm).1] at isBody
  | body short isSplit =>
    have sameLength := congrArg List.length isSplit
    simp only [← isInput, append_nil, length_append] at sameLength
    omega

/-- The bytes that the handler has not taken yet, those that have not arrived included. -/
def unread (stream : ForwardStream) : ℕ := stream.available.length + stream.future.length

theorem unread_receiveBody (stream : ForwardStream) (handler : ForwardConnectionHandler)
    (body : FIFOBuffer) (throws : Bool) :
    (stream.receiveBody handler body throws).unread =
      (body.receiveBytes stream.available).2.length + stream.future.length := by
  rw [receiveBody]
  split
  · rfl
  · rfl

theorem unread_receiveLength_le (stream : ForwardStream) (handler : ForwardConnectionHandler)
    (late : ℕ) (throws : Bool) :
    (stream.receiveLength handler late throws).unread ≤
      (handler.reqBodyLenBuf.receiveBytes stream.available).2.length + stream.future.length := by
  have isArrived :
      ((handler.reqBodyLenBuf.receiveBytes stream.available).2 ++ stream.future.take late).length +
        (stream.future.drop late).length =
      (handler.reqBodyLenBuf.receiveBytes stream.available).2.length + stream.future.length := by
    rw [length_append, Nat.add_assoc, ← length_append, take_append_drop]
  rw [receiveLength, ← isArrived]
  split
  · split
    · split
      · exact Nat.le_refl _
      · rw [unread_receiveBody]
        apply Nat.add_le_add_right
        simp only [FIFOBuffer.receiveBytes, length_drop]
        omega
    · exact Nat.le_refl _
  · exact Nat.le_refl _

theorem unread_receiveHeader (stream : ForwardStream) (handler : ForwardConnectionHandler) :
    (stream.receiveHeader handler).unread =
      (handler.reqHeaderBuf.receiveBytes stream.available).2.length + stream.future.length := by
  rw [receiveHeader]
  split
  · rfl
  · split <;> rfl

theorem unread_turn (isThere : stream.available ≠ [])
    (reading : Reading handler (stream.available ++ stream.future) rest) :
    (stream.turn handler late false).unread < stream.unread := by
  have isLess {buffer : FIFOBuffer} (notFull : buffer.content.length < buffer.size) :
      (buffer.receiveBytes stream.available).2.length + stream.future.length < stream.unread :=
    Nat.add_lt_add_right (FIFOBuffer.length_receiveBytes_lt notFull isThere) _
  generalize stream.available ++ stream.future = input at reading
  cases reading with
  | idle =>
    simp only [turn, if_true, unread_receiveHeader]
    exact isLess (by decide)
  | length notHandshake bounded short isSplit =>
    simp only [turn, false_eq_true, if_false, if_neg notHandshake]
    exact (unread_receiveLength_le ..).trans_lt (isLess short)
  | handshake isHandshake isBody =>
    simp only [turn, false_eq_true, if_false, if_pos isHandshake, unread_receiveBody]
    exact isLess (by decide)
  | body short isSplit =>
    simp only [turn, false_eq_true, if_false, unread_receiveBody]
    exact isLess short

/--
When no processing throws, the packages are processed one after the other, each once,
however their bytes arrive: those of which all bytes have been read are processed, and as long
as there are bytes a turn of the loop reads some of them.
-/
theorem packages_processed_once (wellFormed : ∀ package ∈ packages, package.WellFormed)
    (reachable : ReachableBy next Calm (start packages) stream) :
    stream.handler.isSome ∧ (∃ rest, packages = stream.processed ++ rest) ∧
      (stream.unread = 0 → stream.processed = packages) ∧
      ∀ late after, stream.next (.turn late false) = some after → after.unread < stream.unread := by
  have sound : stream.Sound packages := by
    refine reachable.invariant (Sound packages) ⟨{}, packages, rfl, .idle, rfl⟩ ?_
    intro before after event sound meets moves
    rcases sound with ⟨handler, rest, isHandler, reading, rfl⟩
    cases event with
    | arrive count =>
      cases moves
      refine ⟨handler, rest, isHandler, ?_, rfl⟩
      rwa [append_assoc, take_append_drop]
    | turn late throws =>
      cases meets
      rcases ite_none_left_eq_some.mp moves with ⟨isThere, moves⟩
      rw [isHandler, map_some, some.injEq] at moves
      rw [← moves]
      exact turn_sound isThere (fun package isRest =>
        wellFormed package (mem_append_right _ isRest)) reading
  rcases sound with ⟨handler, rest, isHandler, reading, rfl⟩
  refine ⟨by rw [isHandler]; rfl, ⟨rest, rfl⟩, ?_, ?_⟩
  · intro noneLeft
    rcases Nat.add_eq_zero_iff.mp noneLeft with ⟨noneThere, noneSent⟩
    rw [eq_nil_of_length_eq_zero noneThere, eq_nil_of_length_eq_zero noneSent] at reading
    rw [reading.eq_nil, append_nil]
  · intro late after moves
    rcases ite_none_left_eq_some.mp moves with ⟨isThere, moves⟩
    rw [isHandler, map_some, some.injEq] at moves
    rw [← moves]
    exact unread_turn isThere reading

def samplePackages : List ForwardPackage :=
  [{ type := .handshake, body := [0, 0, 0, 2, 0, 0, 0, 1] }, { type := .user, body := [7, 8] },
    { type := .syncSessions, body := [] }]

def sampleEvents : List StreamEvent :=
  [.arrive 10, .turn 0 false, .turn 0 false, .turn 0 false, .arrive 3, .turn 0 false, .arrive 1,
    .turn 1 false, .arrive 6, .turn 0 false, .turn 0 false, .turn 0 false]

theorem packages_processed_once_sample :
    (∀ package ∈ samplePackages, package.WellFormed) ∧
      ∃ stream, ReachableBy next Calm (start samplePackages) stream ∧
        stream.processed = samplePackages := by
  have wellFormed : ∀ package ∈ samplePackages, package.WellFormed := by
    unfold ForwardPackage.WellFormed
    decide
  refine ⟨wellFormed, exists_reached_of (·.unread = 0) sampleEvents (by decide +kernel) ?_⟩
  exact fun reachable isRead => (packages_processed_once wellFormed reachable).2.2.1 isRead

/-- The second package throws when it is processed first, and the first byte of the next package is
there. -/
theorem package_processed_twice :
    (runFrom next (start samplePackages)
      [.arrive 17, .turn 0 false, .turn 0 false, .turn 0 false, .turn 0 true, .turn 0 false]).map
        (·.processed.map (·.type)) = some [.handshake, .user, .user] := by
  decide +kernel

end ForwardStream

end RaftKeeper

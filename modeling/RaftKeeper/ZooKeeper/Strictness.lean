import RaftKeeper.ZooKeeper.RequestRoundTrip

/-!
# Frames that are cut off

What is missing of a string is noticed when anything is read after it, so a frame that is cut off is
refused unless its request ends with a string or with a list of strings. In these four kinds the
last string is filled up with zeros, if the cut is inside its bytes.
-/

namespace RaftKeeper

open List Reader

namespace ZooReader

/-- Fewer bytes follow than the length in front of the string announces. -/
def stringCut : Bytes → Bool :=
  after int32 fun size rest =>
    0 ≤ size && size.toInt.toNat ≤ maxStringOrArraySize && rest.length < size.toInt.toNat

/-- The last of so many strings is cut. -/
def stringsCut : ℕ → Bytes → Bool
  | 0 => fun _ => false
  | 1 => stringCut
  | count + 2 => after string fun _ => stringsCut (count + 1)

def vectorCut : Bytes → Bool :=
  after int32 fun size rest =>
    0 ≤ size && size.toInt.toNat ≤ maxStringOrArraySize && stringsCut size.toInt.toNat rest

/-- The last string of the request is cut; only four kinds end with one. -/
def requestCut : OpNum → Bytes → Bool
  | .sync | .getACL => stringCut
  | .auth => after int32 fun _ => after string fun _ => stringCut
  | .setWatches =>
    after int64 fun _ => after (vector string) fun _ => after (vector string) fun _ => vectorCut
  | _ => fun _ => false

/-- The frame ends inside the bytes of the last string of its request. -/
def frameCut : Bytes → Bool := after int32 fun _ => after opNum requestCut

theorem cuts_sized {α : Type} {size : Int32} {negative tooLarge : ReadError} {decoder : ZooReader α}
    {cut : Bytes → Bool} (cuts : decoder.Cuts cut) :
    Cuts (fun rest => 0 ≤ size && size.toInt.toNat ≤ maxStringOrArraySize && cut rest)
      (if size < 0 then throw negative
        else if maxStringOrArraySize < size.toInt.toNat then throw tooLarge
        else decoder : ZooReader α) := by
  split
  next isNegative =>
    have notLe : decide ((0 : Int32) ≤ size) = false := by simpa using isNegative
    simp only [notLe, Bool.false_and]
    exact .of_takes (.throw _)
  next notNegative =>
    have isLe : decide ((0 : Int32) ≤ size) = true := by simpa using notNegative
    split
    next isTooLarge =>
      simp only [isLe, Bool.true_and, decide_eq_false (Nat.not_le.mpr isTooLarge), Bool.false_and]
      exact .of_takes (.throw _)
    next fits =>
      simp only [isLe, Bool.true_and, decide_eq_true (Nat.not_lt.mp fits)]
      exact cuts

theorem cuts_string : string.Cuts stringCut := by
  apply Cuts.bind takes_int32
  intro size
  split
  next isAbsent =>
    subst isAbsent
    exact .of_takes (.pure [])
  · exact cuts_sized (.takePadded _)

theorem stops_string : string.Stops := stops_int32.bind _

theorem cuts_readTimes (count : ℕ) : (readTimes string count).Cuts (stringsCut count) := by
  induction count with
  | zero => exact .of_takes (.pure [])
  | succ count ih =>
    cases count with
    | zero => exact cuts_string.last fun text => [text]
    | succ count =>
      exact .bind_of_stops takes_string (fun first => ih.last _)
        fun first => (stops_string.bind _).bind _

theorem cuts_vector : (vector string).Cuts vectorCut :=
  .bind takes_int32 fun _ => cuts_sized (cuts_readTimes _)

theorem cuts_request (opNum : OpNum) : (request opNum).Cuts (requestCut opNum) := by
  cases registered : multiOperationType opNum with
  | some type =>
    rw [request_of_type registered]
    cases opNum with
    | multi | multiRead => exact .of_takes (takes_multiAll.map _)
    | _ => cases registered
  | none =>
    rw [request_of_single registered]
    refine .map ?_ _
    have stops_vector : (vector string).Stops := stops_int32.bind _
    cases opNum with
    | sync | getACL => exact cuts_string.map _
    | auth =>
      exact .bind takes_int32 fun _ => .bind_of_stops takes_string (fun _ => cuts_string.last _)
        fun _ => stops_string.bind _
    | setWatches =>
      have takes_strings := takes_vector takes_string
      exact .bind takes_int64 fun _ => .bind_of_stops takes_strings (fun _ =>
        .bind_of_stops takes_strings (fun _ => cuts_vector.last _) fun _ => stops_vector.bind _)
        fun _ => stops_vector.bind _
    | _ => exact .of_takes ((takes_single _).mono fun _ => rfl)

theorem cuts_frame : frame.Cuts frameCut :=
  .bind takes_int32 fun _ => .bind takes_opNum fun opNum => (cuts_request opNum).last _

end ZooReader

open ZooReader

variable {bytes : Bytes}

theorem receiveRequest_eq_ok_iff {result : Int32 × Request} :
    receiveRequest bytes = .ok result ↔ ∃ rest, frame.run bytes = .ok (result, rest) := by
  have isRun : receiveRequest bytes = Prod.fst <$> frame.run bytes := rfl
  rw [isRun]
  cases frame.run bytes with
  | error exception => simp [Functor.map, Except.map]
  | ok pair =>
    rcases pair with ⟨value, rest⟩
    simp [Functor.map, Except.map]

/-- The `xid`, the op number and the body of a request, as a client sends them in a frame. -/
def Request.frame (xid : Int32) (request : Request) : Bytes :=
  writeInt32 xid ++ (writeInt32 request.getOpNum.raw ++ request.writeImpl)

theorem reads_requestFrame (xid : Int32) {request : Request} (registered : request.Registered)
    (readable : request.Readable) : ZooReader.frame.Reads (request.frame xid) (xid, request) :=
  (reads_int32 xid).bind ((reads_opNum (getOpNum_specified request)).bind
    ((reads_request readable registered).last _))

/--
A frame is refused, or its request stands in its first bytes and does not depend on what comes
behind them, if and only if it does not end inside the bytes of the last string. A part of the
frame of a request is refused under the same condition.
-/
theorem receiveRequest_strict_iff (bytes : Bytes) :
    ((∀ result, receiveRequest bytes = .ok result →
        ∃ used rest, bytes = used ++ rest ∧ ZooReader.frame.Reads used result) ↔
      frameCut bytes = false) ∧
    ∀ (xid : Int32) (request : Request), request.Registered → request.Readable →
      ∀ back, request.frame xid = bytes ++ back → back ≠ [] →
        ((∃ error, receiveRequest bytes = .error error) ↔ frameCut bytes = false) := by
  have strict : frameCut bytes = false → ∀ result, receiveRequest bytes = .ok result →
      ∃ used rest, bytes = used ++ rest ∧ ZooReader.frame.Reads used result := by
    intro notCut result received
    rcases receiveRequest_eq_ok_iff.mp received with ⟨rest, succeeds⟩
    rcases cuts_frame.takes bytes result rest notCut succeeds with ⟨used, split, reads⟩
    exact ⟨used, rest, split, reads⟩
  refine ⟨⟨fun holds => ?_, strict⟩, fun xid request registered readable back split cut =>
    ⟨fun refused => ?_, fun notCut => ?_⟩⟩
  · by_contra isCut
    rcases cuts_frame.pads bytes (by simpa using isCut) with
      ⟨result, missing, positive, succeeds, reads⟩
    rcases holds result (receiveRequest_eq_ok_iff.mpr ⟨[], succeeds⟩) with
      ⟨used, rest, rfl, readsUsed⟩
    -- With the missing bytes behind it, the frame is read with and without something left over.
    rw [append_assoc] at reads
    have noMissing := (append_eq_nil_iff.mp (readsUsed.eq_nil_of_append reads)).2
    rw [replicate_eq_nil_iff] at noMissing
    omega
  · by_contra isCut
    rcases cuts_frame.pads bytes (by simpa using isCut) with ⟨result, _, _, succeeds, _⟩
    rcases refused with ⟨error, refused⟩
    rw [receiveRequest_eq_ok_iff.mpr ⟨[], succeeds⟩] at refused
    cases refused
  · cases received : receiveRequest bytes with
    | error error => exact ⟨error, rfl⟩
    | ok result =>
      rcases strict notCut result received with ⟨used, rest, rfl, reads⟩
      -- The whole frame would be read with something left over.
      have whole := reads_requestFrame xid registered readable
      rw [split, append_assoc] at whole
      exact absurd (append_eq_nil_iff.mp (reads.eq_nil_of_append whole)).2 cut

def existWatchFrame : Bytes :=
  Request.frame 1 (.single (.setWatches
    { relativeZxid := 5, dataWatches := [], existWatches := [ascii "/ab"], listWatches := [] }))

/-- Cut inside a string that another list follows. -/
theorem receiveRequest_strict_existWatch :
    frameCut (existWatchFrame.take 30) = false ∧
      ∃ error, receiveRequest (existWatchFrame.take 30) = .error error := by
  refine ⟨by decide +kernel, ?_⟩
  refine ((receiveRequest_strict_iff (existWatchFrame.take 30)).2 1 _ (.single _) (.single ?_)
    (existWatchFrame.drop 30) (take_append_drop 30 _).symm (by decide +kernel)).mpr
      (by decide +kernel)
  exact ⟨⟨by decide, by simp⟩, ⟨by decide, by simp; decide⟩, by decide, by simp⟩

/-- A Sync of the path `"/ab"` whose frame ends one byte too early. -/
theorem receiveRequest_padded :
    receiveRequest ((Request.frame 1 (.single (.sync (ascii "/ab")))).take 14) =
      .ok (1, .single (.sync (ascii "/a" ++ [0]))) := by
  rfl

end RaftKeeper

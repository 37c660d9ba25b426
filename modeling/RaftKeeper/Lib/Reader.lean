import Mathlib.Data.List.Basic
import Mathlib.Tactic.Ring

/-!
# Reading bytes

A reader takes bytes off the front of its input or throws. `Reads` says that a reader
turns given bytes into a given value, whatever comes after them; its rules follow the
way readers are put together, so the round trip of a composed encoding is assembled from
the round trips of its parts.
-/

open List

abbrev Reader (ε α : Type) := StateT (List UInt8) (Except ε) α

namespace Reader

variable {ε α β : Type}

/-- `reader` turns `bytes` into `value`, whatever comes after them. -/
def Reads (reader : Reader ε α) (bytes : List UInt8) (value : α) : Prop :=
  ∀ rest, reader.run (bytes ++ rest) = .ok (value, rest)

namespace Reads

theorem pure (value : α) : Reads (Pure.pure value : Reader ε α) [] value := by
  intro rest
  rfl

variable {value : α} {reader : Reader ε α} {bytes : List UInt8}

theorem bind {next : α → Reader ε β} {more : List UInt8} {result : β}
    (first : Reads reader bytes value) (second : Reads (next value) more result) :
    Reads (reader >>= next) (bytes ++ more) result := by
  intro rest
  rw [append_assoc, StateT.run_bind, first]
  exact second rest

theorem map (change : α → β) (reads : Reads reader bytes value) :
    Reads (change <$> reader) bytes (change value) := by
  intro rest
  rw [StateT.run_map, reads]
  rfl

theorem last (change : α → β) (reads : Reads reader bytes value) :
    Reads (reader >>= fun value => Pure.pure (change value)) bytes (change value) := by
  rw [← append_nil bytes]
  apply reads.bind
  exact .pure (change value)

/-- Of two inputs that are read, none is a proper part of the other. -/
theorem eq_nil_of_append {other : α} {more : List UInt8} (part : Reads reader bytes value)
    (whole : Reads reader (bytes ++ more) other) : more = [] := by
  have ran := whole []
  rw [append_nil, part, Except.ok.injEq, Prod.mk.injEq] at ran
  exact ran.2

end Reads

/-- `reader` refuses `bytes`, whatever comes after them. -/
def Fails (reader : Reader ε α) (bytes : List UInt8) (error : ε) : Prop :=
  ∀ rest, reader.run (bytes ++ rest) = .error error

theorem fails_throw (error : ε) : Fails (throw error : Reader ε α) [] error := by
  intro rest
  rfl

variable {reader : Reader ε α} {error : ε} {bytes : List UInt8}

theorem Fails.append (fails : Fails reader bytes error) (more : List UInt8) :
    Fails reader (bytes ++ more) error := by
  intro rest
  rw [append_assoc]
  exact fails (more ++ rest)

theorem Fails.bind (fails : Fails reader bytes error) (next : α → Reader ε β) :
    Fails (reader >>= next) bytes error := by
  intro rest
  rw [StateT.run_bind, fails]
  rfl

variable {next : α → Reader ε β}

theorem Reads.bind_fails {more : List UInt8} {value : α} (first : Reads reader bytes value)
    (second : Fails (next value) more error) :
    Fails (reader >>= next) (bytes ++ more) error := by
  intro rest
  rw [append_assoc, StateT.run_bind, first]
  exact second rest

def takeStrict (short : ℕ → ε) (count : ℕ) : Reader ε (List UInt8) := fun input =>
  if input.length < count then .error (short input.length)
  else .ok (input.take count, input.drop count)

/-- Read up to `count` bytes and fill up with zeros. -/
def takePadded (count : ℕ) : Reader ε (List UInt8) := fun input =>
  .ok (input.take count ++ replicate (count - input.length) 0, input.drop count)

def readTimes (reader : Reader ε α) : ℕ → Reader ε (List α)
  | 0 => pure []
  | count + 1 => do
      let first ← reader
      let rest ← readTimes reader count
      pure (first :: rest)

theorem reads_takeStrict (short : ℕ → ε) (bytes : List UInt8) :
    Reads (takeStrict short bytes.length) bytes bytes := by
  intro rest
  simp [takeStrict, StateT.run]

theorem reads_takePadded (bytes : List UInt8) :
    Reads (takePadded bytes.length : Reader ε _) bytes bytes := by
  intro rest
  simp [takePadded, StateT.run]

theorem reads_readTimes {reader : Reader ε α} {encode : α → List UInt8} {values : List α}
    (reads : ∀ value ∈ values, Reads reader (encode value) value) :
    Reads (readTimes reader values.length) (values.flatMap encode) values := by
  induction values with
  | nil => exact .pure []
  | cons first rest ih =>
    rw [flatMap_cons]
    apply Reads.bind (reads first mem_cons_self)
    apply Reads.last
    exact ih fun value isMember => reads value (mem_cons_of_mem _ isMember)

/-- `reader` turns `bytes` into `value` where `accepted` holds, and refuses them elsewhere. -/
structure ReadsIff (reader : Reader ε α) (bytes : List UInt8) (value : α) (accepted : Prop) :
    Prop where
  reads : accepted → Reads reader bytes value
  fails : ¬ accepted → ∃ error, Fails reader bytes error

theorem Reads.always {reader : Reader ε α} {bytes : List UInt8} {value : α}
    (reads : Reads reader bytes value) : ReadsIff reader bytes value True :=
  ⟨fun _ => reads, fun never => absurd trivial never⟩

namespace ReadsIff

variable {reader : Reader ε α} {bytes more : List UInt8} {value : α} {accepted others : Prop}

theorem bind {next : α → Reader ε β} {result : β} (first : ReadsIff reader bytes value accepted)
    (second : ReadsIff (next value) more result others) :
    ReadsIff (reader >>= next) (bytes ++ more) result (accepted ∧ others) := by
  refine ⟨fun both => (first.reads both.1).bind (second.reads both.2), fun notBoth => ?_⟩
  by_cases isAccepted : accepted
  · rcases second.fails fun isOther => notBoth ⟨isAccepted, isOther⟩ with ⟨error, fails⟩
    exact ⟨error, (first.reads isAccepted).bind_fails fails⟩
  · rcases first.fails isAccepted with ⟨error, fails⟩
    exact ⟨error, (fails.bind next).append more⟩

theorem last (change : α → β) (first : ReadsIff reader bytes value accepted) :
    ReadsIff (reader >>= fun value => Pure.pure (change value)) bytes (change value) accepted := by
  refine ⟨fun isAccepted => (first.reads isAccepted).last change, fun notAccepted => ?_⟩
  rcases first.fails notAccepted with ⟨error, fails⟩
  exact ⟨error, fails.bind _⟩

theorem readTimes {encode : α → List UInt8} {readable : α → Prop} {values : List α}
    (elements : ∀ value ∈ values, ReadsIff reader (encode value) value (readable value)) :
    ReadsIff (Reader.readTimes reader values.length) (values.flatMap encode) values
      (∀ value ∈ values, readable value) := by
  induction values with
  | nil => exact ⟨fun _ => .pure [], fun never => absurd (forall_mem_nil _) never⟩
  | cons first rest ih =>
    rcases forall_mem_cons.mp elements with ⟨readsFirst, readsRest⟩
    rw [flatMap_cons, forall_mem_cons]
    apply readsFirst.bind
    apply ReadsIff.last
    exact ih readsRest

theorem run_cases (readsIff : ReadsIff reader bytes value accepted) :
    (accepted ∧ reader.run bytes = .ok (value, [])) ∨
      (¬ accepted ∧ ∃ error, reader.run bytes = .error error) := by
  by_cases isAccepted : accepted
  · have ran := readsIff.reads isAccepted []
    rw [append_nil] at ran
    exact .inl ⟨isAccepted, ran⟩
  · rcases readsIff.fails isAccepted with ⟨error, fails⟩
    have ran := fails []
    rw [append_nil] at ran
    exact .inr ⟨isAccepted, error, ran⟩

end ReadsIff

/--
Where `reader` succeeds it has taken bytes off the front of its input. They alone make the
value if anything is left of the input, or in any case if the reader is `strict`.
-/
def Takes (strict : Prop) (reader : Reader ε α) : Prop :=
  ∀ input value rest, reader.run input = .ok (value, rest) →
    ∃ used, input = used ++ rest ∧ (strict ∨ rest ≠ [] → Reads reader used value)

/-- `reader` does not succeed at the end of the input. -/
def Stops (reader : Reader ε α) : Prop := ∀ result, reader.run [] ≠ .ok result

variable {input : List UInt8}

theorem run_bind_eq_ok {rest : List UInt8} {result : β}
    (succeeds : (reader >>= next).run input = .ok (result, rest)) :
    ∃ value middle, reader.run input = .ok (value, middle) ∧
      (next value).run middle = .ok (result, rest) := by
  rw [StateT.run_bind] at succeeds
  cases ran : reader.run input with
  | error exception =>
    rw [ran] at succeeds
    cases succeeds
  | ok pair =>
    rw [ran] at succeeds
    exact ⟨pair.1, pair.2, rfl, succeeds⟩

theorem Stops.bind (stops : Stops reader) (next : α → Reader ε β) : Stops (reader >>= next) := by
  rintro ⟨result, rest⟩ succeeds
  rcases run_bind_eq_ok succeeds with ⟨value, middle, ran, _⟩
  exact stops _ ran

namespace Takes

variable {reader : Reader ε α} {next : α → Reader ε β} {strict weaker : Prop}

theorem mono (takes : Takes strict reader) (implies : weaker → strict) : Takes weaker reader := by
  intro input value rest succeeds
  rcases takes input value rest succeeds with ⟨used, split, reads⟩
  exact ⟨used, split, fun isAlone => reads (isAlone.imp_left implies)⟩

theorem always (takes : Takes True reader) : Takes strict reader := takes.mono fun _ => trivial

variable {input rest : List UInt8} {value : α}

theorem length_le (takes : Takes strict reader) (succeeds : reader.run input = .ok (value, rest)) :
    rest.length ≤ input.length := by
  rcases takes input value rest succeeds with ⟨used, rfl, _⟩
  simp

theorem length_lt (takes : Takes True reader) (stops : Stops reader)
    (succeeds : reader.run input = .ok (value, rest)) : rest.length < input.length := by
  rcases takes input value rest succeeds with ⟨used, rfl, reads⟩
  cases used with
  | nil => exact absurd (reads (.inl trivial) []) (stops _)
  | cons byte more =>
    rw [length_append, length_cons]
    omega

theorem pure (value : α) : Takes strict (Pure.pure value : Reader ε α) := by
  intro input result rest succeeds
  cases succeeds
  exact ⟨[], rfl, fun _ => .pure _⟩

theorem throw (error : ε) : Takes strict (MonadExcept.throw error : Reader ε α) := by
  intro input result rest succeeds
  cases succeeds

/-- The second reader shows that the input of the first one has not ended. -/
theorem bind_of_stops (first : Takes False reader) (second : ∀ value, Takes strict (next value))
    (stops : ∀ value, Stops (next value)) : Takes strict (reader >>= next) := by
  intro input result rest succeeds
  rcases run_bind_eq_ok succeeds with ⟨value, middle, ran, continued⟩
  have left : middle ≠ [] := by
    rintro rfl
    exact stops value _ continued
  rcases first input value middle ran with ⟨used, rfl, reads⟩
  rcases second value middle result rest continued with ⟨more, rfl, readsNext⟩
  exact ⟨used ++ more, (append_assoc ..).symm,
    fun isAlone => (reads (.inr left)).bind (readsNext isAlone)⟩

theorem bind (first : Takes strict reader) (second : ∀ value, Takes strict (next value)) :
    Takes strict (reader >>= next) := by
  intro input result rest succeeds
  rcases run_bind_eq_ok succeeds with ⟨value, middle, ran, continued⟩
  rcases first input value middle ran with ⟨used, rfl, reads⟩
  rcases second value middle result rest continued with ⟨more, rfl, readsNext⟩
  refine ⟨used ++ more, (append_assoc ..).symm, fun isAlone => ?_⟩
  exact (reads (isAlone.imp_right fun left => by simp [left])).bind (readsNext isAlone)

theorem map (change : α → β) (takes : Takes strict reader) : Takes strict (change <$> reader) := by
  rw [map_eq_pure_bind]
  exact takes.bind fun _ => .pure _

theorem takeStrict (short : ℕ → ε) (count : ℕ) : Takes strict (Reader.takeStrict short count) := by
  intro input value rest succeeds
  simp only [Reader.takeStrict, StateT.run] at succeeds
  split at succeeds
  · cases succeeds
  next enough =>
    cases succeeds
    have reads := reads_takeStrict short (input.take count)
    rw [length_take, Nat.min_eq_left (Nat.not_lt.mp enough)] at reads
    exact ⟨input.take count, (take_append_drop ..).symm, fun _ => reads⟩

theorem takePadded (count : ℕ) : Takes False (Reader.takePadded count : Reader ε _) := by
  intro input value rest succeeds
  cases succeeds
  refine ⟨input.take count, (take_append_drop ..).symm, fun isAlone => ?_⟩
  have left : count < input.length := by simpa using isAlone
  have reads := @reads_takePadded ε (input.take count)
  rw [length_take, Nat.min_eq_left left.le] at reads
  simpa [Nat.sub_eq_zero_of_le left.le] using reads

theorem readTimes (takes : Takes strict reader) (count : ℕ) :
    Takes strict (Reader.readTimes reader count) := by
  induction count with
  | zero => exact .pure []
  | succ count ih => exact takes.bind fun _ => ih.bind fun _ => .pure _

end Takes

/-- `reader` reads the whole input as if zeros that are missing stood behind it. -/
def Pads (reader : Reader ε α) (input : List UInt8) : Prop :=
  ∃ value missing, 0 < missing ∧ reader.run input = .ok (value, []) ∧
    Reads reader (input ++ replicate missing 0) value

/-- What `reader` leaves of the input meets the condition that its value gives. -/
def after (reader : Reader ε α) (condition : α → List UInt8 → Bool) (input : List UInt8) : Bool :=
  match reader.run input with
  | .ok (value, rest) => condition value rest
  | .error _ => false

/-- `reader` fills up the inputs that are cut, and takes its values from the bytes of others. -/
structure Cuts (cut : List UInt8 → Bool) (reader : Reader ε α) : Prop where
  pads : ∀ input, cut input = true → Pads reader input
  takes : ∀ input value rest, cut input = false → reader.run input = .ok (value, rest) →
    ∃ used, input = used ++ rest ∧ Reads reader used value

namespace Cuts

variable {reader : Reader ε α} {next : α → Reader ε β} {cut : α → List UInt8 → Bool}

theorem of_takes (takes : Takes True reader) : Cuts (fun _ => false) reader where
  pads := nofun
  takes input value rest _ succeeds := by
    rcases takes input value rest succeeds with ⟨used, split, reads⟩
    exact ⟨used, split, reads (.inl trivial)⟩

theorem bind_of_reads (second : ∀ value, Cuts (cut value) (next value))
    (first : ∀ input value middle, reader.run input = .ok (value, middle) →
      (∃ result, (next value).run middle = .ok result) →
        ∃ used, input = used ++ middle ∧ Reads reader used value) :
    Cuts (after reader cut) (reader >>= next) where
  pads input isCut := by
    unfold after at isCut
    split at isCut
    next value middle ran =>
      rcases (second value).pads middle isCut with ⟨result, missing, positive, continued, reads⟩
      rcases first input value middle ran ⟨_, continued⟩ with ⟨used, rfl, readsFirst⟩
      refine ⟨result, missing, positive, ?_, ?_⟩
      · rw [StateT.run_bind, ran]
        exact continued
      · rw [append_assoc]
        exact readsFirst.bind reads
    next => cases isCut
  takes input result rest notCut succeeds := by
    rcases run_bind_eq_ok succeeds with ⟨value, middle, ran, continued⟩
    simp only [after, ran] at notCut
    rcases first input value middle ran ⟨_, continued⟩ with ⟨used, rfl, readsFirst⟩
    rcases (second value).takes middle result rest notCut continued with ⟨more, rfl, reads⟩
    exact ⟨used ++ more, (append_assoc ..).symm, readsFirst.bind reads⟩

theorem bind (first : Takes True reader) (second : ∀ value, Cuts (cut value) (next value)) :
    Cuts (after reader cut) (reader >>= next) := by
  refine bind_of_reads second fun input value middle ran _ => ?_
  rcases first input value middle ran with ⟨used, split, reads⟩
  exact ⟨used, split, reads (.inl trivial)⟩

theorem bind_of_stops (first : Takes False reader)
    (second : ∀ value, Cuts (cut value) (next value)) (stops : ∀ value, Stops (next value)) :
    Cuts (after reader cut) (reader >>= next) := by
  refine bind_of_reads second fun input value middle ran continued => ?_
  rcases first input value middle ran with ⟨used, split, reads⟩
  refine ⟨used, split, reads (.inr ?_)⟩
  rintro rfl
  rcases continued with ⟨result, continued⟩
  exact stops value result continued

theorem last {isCut : List UInt8 → Bool} (cuts : Cuts isCut reader) (change : α → β) :
    Cuts isCut (reader >>= fun value => Pure.pure (change value)) where
  pads input cutHere := by
    rcases cuts.pads input cutHere with ⟨value, missing, positive, ran, reads⟩
    refine ⟨change value, missing, positive, ?_, reads.last change⟩
    rw [StateT.run_bind, ran]
    rfl
  takes input result rest notCut succeeds := by
    rcases run_bind_eq_ok succeeds with ⟨value, middle, ran, ends⟩
    cases ends
    rcases cuts.takes input value _ notCut ran with ⟨used, split, reads⟩
    exact ⟨used, split, reads.last change⟩

theorem map {isCut : List UInt8 → Bool} (cuts : Cuts isCut reader) (change : α → β) :
    Cuts isCut (change <$> reader) := by
  rw [map_eq_pure_bind]
  exact cuts.last change

theorem takePadded (count : ℕ) :
    Cuts (fun input => input.length < count) (Reader.takePadded count : Reader ε _) where
  pads input isShort := by
    have short : input.length < count := of_decide_eq_true isShort
    have reads := @reads_takePadded ε (input ++ replicate (count - input.length) 0)
    rw [length_append, length_replicate, Nat.add_sub_cancel' short.le] at reads
    refine ⟨_, count - input.length, by omega, ?_, reads⟩
    simp [Reader.takePadded, StateT.run, take_of_length_le short.le, drop_of_length_le short.le]
  takes input value rest enough succeeds := by
    have long : count ≤ input.length := Nat.not_lt.mp (of_decide_eq_false enough)
    cases succeeds
    have reads := @reads_takePadded ε (input.take count)
    rw [length_take, Nat.min_eq_left long] at reads
    refine ⟨input.take count, (take_append_drop ..).symm, ?_⟩
    simpa [Nat.sub_eq_zero_of_le long] using reads

end Cuts

theorem run_bind_congr {other : Reader ε α} {otherNext : α → Reader ε β}
    (same : reader.run input = other.run input)
    (sameNext : ∀ value rest, other.run input = .ok (value, rest) →
      (next value).run rest = (otherNext value).run rest) :
    (reader >>= next).run input = (other >>= otherNext).run input := by
  rw [StateT.run_bind, StateT.run_bind, same]
  cases ran : other.run input with
  | error exception => rfl
  | ok pair => exact sameNext pair.1 pair.2 ran

end Reader

/-- The lowest `width` bytes of a number, the most significant first. -/
def bigEndian : ℕ → ℕ → List UInt8
  | 0, _ => []
  | width + 1, value => bigEndian width (value / 256) ++ [UInt8.ofNat value]

def ofBigEndian (bytes : List UInt8) : ℕ :=
  bytes.foldl (fun value byte => value * 256 + byte.toNat) 0

@[simp]
theorem length_bigEndian (width value : ℕ) : (bigEndian width value).length = width := by
  induction width generalizing value with
  | zero => rfl
  | succ width ih => rw [bigEndian, length_append, ih, length_singleton]

theorem ofBigEndian_bigEndian {width value : ℕ} (bound : value < 256 ^ width) :
    ofBigEndian (bigEndian width value) = value := by
  induction width generalizing value with
  | zero =>
    simp only [Nat.pow_zero, Nat.lt_one_iff] at bound
    rw [bound]
    rfl
  | succ width ih =>
    have quotient : value / 256 < 256 ^ width := by
      apply Nat.div_lt_of_lt_mul
      rwa [Nat.pow_succ, Nat.mul_comm] at bound
    have front := ih quotient
    simp only [ofBigEndian] at front ⊢
    rw [bigEndian, foldl_append, front]
    simp only [foldl_cons, foldl_nil, UInt8.toNat_ofNat']
    omega

theorem bigEndian_mod (width value : ℕ) :
    bigEndian width (value % 256 ^ width) = bigEndian width value := by
  induction width generalizing value with
  | zero => rfl
  | succ width ih =>
    have quotient : value % 256 ^ (width + 1) / 256 = value / 256 % 256 ^ width := by
      rw [Nat.pow_succ, Nat.mul_comm, Nat.mod_mul_right_div_self]
    have lowest : UInt8.ofNat (value % 256 ^ (width + 1)) = UInt8.ofNat value := by
      rw [← UInt8.toNat_inj, UInt8.toNat_ofNat', UInt8.toNat_ofNat']
      exact Nat.mod_mod_of_dvd _ (Dvd.intro_left _ (Nat.pow_succ ..).symm)
    rw [bigEndian, bigEndian, quotient, ih, lowest]

def littleEndian (width value : ℕ) : List UInt8 := (bigEndian width value).reverse

def ofLittleEndian (bytes : List UInt8) : ℕ := ofBigEndian bytes.reverse

@[simp]
theorem length_littleEndian (width value : ℕ) : (littleEndian width value).length = width := by
  simp [littleEndian]

theorem ofLittleEndian_littleEndian {width value : ℕ} (bound : value < 256 ^ width) :
    ofLittleEndian (littleEndian width value) = value := by
  rw [ofLittleEndian, littleEndian, reverse_reverse, ofBigEndian_bigEndian bound]
